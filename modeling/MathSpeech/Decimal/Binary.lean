/-!
# Decimal/Binary — a double taken apart

A double is not a number, an infinity, or `± m · 2 ^ e` with natural `m` and integer `e`.  The
decimal forms of the other modules are computed from `m` and `e` in exact arithmetic.
-/

namespace MathSpeech.Decimal

/-- **What a double stands for**: its sign, its mantissa and its exponent, if it is finite. -/
inductive Binary
  | notANumber
  | infinite (negative : Bool)
  | finite (negative : Bool) (mantissa : Nat) (exponent : Int)
deriving DecidableEq, Repr

/-- **A double taken apart**: one bit of sign, eleven of exponent, fifty-two of mantissa.  The least
exponent field marks the subnormal doubles, which have no implied leading bit. -/
def Binary.ofFloat (x : Float) : Binary :=
  let bits := x.toBits.toNat
  let negative := bits / Nat.pow 2 63 == 1
  let field := bits / Nat.pow 2 52 % Nat.pow 2 11
  let fraction := bits % Nat.pow 2 52
  if field = 2047 then (if fraction = 0 then .infinite negative else .notANumber)
  else if field = 0 then .finite negative fraction (-1074)
  else .finite negative (Nat.pow 2 52 + fraction) (Int.ofNat field - 1075)

/-! ## Ratios

A finite double is the ratio of two natural numbers, one of them a power of two. -/

/-- **A ratio** of natural numbers; the denominator is positive wherever one is built. -/
structure Ratio where
  num : Nat
  den : Nat
deriving DecidableEq, Repr

namespace Ratio

/-- The ratio `m · base ^ e`. -/
def scaled (m base : Nat) : Int → Ratio
  | .ofNat e => ⟨m * base.pow e, 1⟩
  | .negSucc e => ⟨m, base.pow (e + 1)⟩

/-- The product with `10 ^ e`. -/
def timesTen (r : Ratio) : Int → Ratio
  | .ofNat e => ⟨r.num * Nat.pow 10 e, r.den⟩
  | .negSucc e => ⟨r.num, r.den * Nat.pow 10 (e + 1)⟩

/-- The whole part. -/
def floor (r : Ratio) : Nat := r.num / r.den

/-- `r ≤ s`, decided by cross multiplication. -/
def le (r s : Ratio) : Bool := r.num * s.den ≤ s.num * r.den

/-- **Rounding to the nearest whole number**; a half goes to the even neighbour. -/
def round (r : Ratio) : Nat :=
  let q := r.num / r.den
  let rest := 2 * (r.num % r.den)
  if rest < r.den then q
  else if r.den < rest then q + 1
  else if q % 2 = 0 then q else q + 1

/-- **The decimal exponent** of a positive ratio: the `k` with `10 ^ k ≤ r < 10 ^ (k + 1)`.  The
lengths of numerator and denominator leave two candidates. -/
def exponent (r : Ratio) : Int :=
  let guess := Int.ofNat (Nat.toDigits 10 r.num).length - Int.ofNat (Nat.toDigits 10 r.den).length
  if le (scaled 1 10 guess) r then guess else guess - 1

end Ratio

end MathSpeech.Decimal
