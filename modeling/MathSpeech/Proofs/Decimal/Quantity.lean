import MathSpeech.Decimal.Binary
import Mathlib

/-!
# Proofs/Decimal/Quantity — a double is known by what it stands for

A double that is a number at all stands for a **quantity**: an infinity, or a rational number.  Two
doubles compare as equal exactly if they stand for one quantity (`Binary.beq_iff_quantity?`), since
the mantissa and the exponent of a double can be told from its size (`Binary.IsCanonical.unique`)
and the two zeros are equal.
-/

namespace MathSpeech.Decimal

open Float.Model (Format UnpackedFloat)
open Float.Model.UnpackedFloat (Sign unpackSign unpackExponent unpackMantissa)

/-! ## Quantities -/

/-- **A quantity**, finite or not. -/
inductive Quantity
  | infinite (negative : Bool)
  | finite (q : ℚ)
deriving DecidableEq

namespace Binary

/-- The sign of a number. -/
def signed (negative : Bool) (q : ℚ) : ℚ := if negative then -q else q

/-- **What a double stands for**, if it is a number. -/
def quantity? : Binary → Option Quantity
  | .notANumber => none
  | .infinite negative => some (.infinite negative)
  | .finite negative m e => some (.finite (signed negative (m * 2 ^ e)))

/-! ## Mantissas and exponents -/

/-- **A mantissa and an exponent of a double**: fifty-three bits, or fewer at the least exponent. -/
def IsCanonical (m : ℕ) (e : ℤ) : Prop :=
  m < 2 ^ 52 ∧ e = -1074 ∨ 2 ^ 52 ≤ m ∧ m < 2 ^ 53 ∧ -1074 ≤ e

theorem IsCanonical.exponent_le {m m' : ℕ} {e e' : ℤ} (h : IsCanonical m e)
    (h' : IsCanonical m' e') (hsize : (m : ℚ) * 2 ^ e = m' * 2 ^ e') : e' ≤ e := by
  by_contra hlt
  rw [not_le] at hlt
  -- the larger exponent is not the least, so its mantissa has all bits, and the other one more
  obtain ⟨-, rfl⟩ | ⟨hm', -, -⟩ := h'
  · obtain ⟨-, rfl⟩ | ⟨-, -, he⟩ := h <;> omega
  · obtain ⟨k, hk⟩ := Int.le.dest (Int.add_one_le_of_lt hlt)
    have hpos : (0 : ℚ) < 2 ^ e := zpow_pos two_pos e
    have hshift : (m : ℚ) = m' * 2 ^ (k + 1) := by
      have he' : e' = e + (k + 1 : ℕ) := by omega
      rw [he', zpow_add₀ two_ne_zero, zpow_natCast, mul_comm (2 ^ e : ℚ), ← mul_assoc] at hsize
      exact mul_right_cancel₀ hpos.ne' hsize
    have hm : m = m' * 2 ^ (k + 1) := by exact_mod_cast hshift
    have hlarge : m' * 2 ≤ m := by
      rw [hm, pow_succ, mul_comm (2 ^ k), ← mul_assoc]
      exact Nat.le_mul_of_pos_right _ (Nat.two_pow_pos k)
    obtain ⟨hsmall, -⟩ | ⟨-, hsmall, -⟩ := h <;> omega

/-- **Mantissa and exponent can be told from the size.** -/
theorem IsCanonical.unique {m m' : ℕ} {e e' : ℤ} (h : IsCanonical m e) (h' : IsCanonical m' e')
    (hsize : (m : ℚ) * 2 ^ e = m' * 2 ^ e') : m = m' ∧ e = e' := by
  obtain rfl : e = e' := le_antisymm (h'.exponent_le h hsize.symm) (h.exponent_le h' hsize)
  have hpos : (0 : ℚ) < 2 ^ e := zpow_pos two_pos e
  exact ⟨by exact_mod_cast mul_right_cancel₀ hpos.ne' hsize, rfl⟩

/-! ## Doubles -/

/-- A double taken apart by its format. -/
def ofUnpacked : UnpackedFloat → Binary
  | .notANumber => .notANumber
  | .infinity s => .infinite (s == .negative)
  | .zero s => .finite (s == .negative) 0 (-1074)
  | .finite s m e _ => .finite (s == .negative) m e

/-! ### The fields of the format

They are read off the bits of a double as numbers. -/

section Fields

variable {b : BitVec Format.binary64.numBits}

theorem toNat_unpackExponent :
    (@unpackExponent Format.binary64 b).toNat = b.toNat / 2 ^ 52 % 2 ^ 11 := by
  rw [UnpackedFloat.unpackExponent_def, BitVec.extractLsb'_toNat, Nat.shiftRight_eq_div_pow]

theorem toNat_unpackMantissa :
    (@unpackMantissa Format.binary64 b).toNat = b.toNat % 2 ^ 52 := by
  rw [UnpackedFloat.unpackMantissa_def, BitVec.extractLsb'_toNat, Nat.shiftRight_zero]

theorem toNat_unpackSign : (@unpackSign Format.binary64 b).toNat = b.toNat / 2 ^ 63 := by
  have hlt : b.toNat < 2 ^ 64 := b.isLt
  rw [UnpackedFloat.unpackSign_def, BitVec.extractLsb'_toNat, Nat.shiftRight_eq_div_pow]
  change b.toNat / 2 ^ 63 % 2 = _
  omega

theorem isNegative_unpackSign : (Sign.ofBitVec (@unpackSign Format.binary64 b) == .negative)
    = (b.toNat / 2 ^ 63 == 1) := by
  have hbit (s : BitVec 1) : (Sign.ofBitVec s == .negative) = (s.toNat == 1) := by
    decide +revert
  rw [hbit, toNat_unpackSign]

theorem unpackExponent_eq_ones_iff :
    @unpackExponent Format.binary64 b = -1#_ ↔ b.toNat / 2 ^ 52 % 2 ^ 11 = 2047 := by
  rw [← BitVec.toNat_inj, toNat_unpackExponent]
  rfl

theorem unpackExponent_eq_zero_iff :
    @unpackExponent Format.binary64 b = 0#_ ↔ b.toNat / 2 ^ 52 % 2 ^ 11 = 0 := by
  rw [← BitVec.toNat_inj, toNat_unpackExponent]
  rfl

theorem unpackMantissa_eq_zero_iff :
    @unpackMantissa Format.binary64 b = 0#_ ↔ b.toNat % 2 ^ 52 = 0 := by
  rw [← BitVec.toNat_inj, toNat_unpackMantissa]
  rfl

/-- The mantissa with its implied leading bit. -/
theorem toNat_leading : (1#1 ++ @unpackMantissa Format.binary64 b).toNat
    = 2 ^ 52 + b.toNat % 2 ^ 52 := by
  rw [BitVec.toNat_append, ← Nat.shiftLeft_add_eq_or_of_lt (BitVec.isLt _), toNat_unpackMantissa]
  rfl

end Fields

/-- **The two ways to take a double apart** agree. -/
theorem ofFloat_eq (x : Float) : ofFloat x = ofUnpacked x.toModel.unpack := by
  obtain ⟨b, hb⟩ : ∃ b : BitVec Format.binary64.numBits, b = x.toModel.toBits.toBitVec := ⟨_, rfl⟩
  have hbits : x.toBits.toNat = b.toNat := by rw [hb]; rfl
  have hunpack : x.toModel.unpack = UnpackedFloat.unpack Format.binary64 b := by rw [hb]; rfl
  rw [hunpack, ofFloat, hbits, UnpackedFloat.unpack]
  simp only [Nat.pow_eq]
  by_cases hlast : b.toNat / 2 ^ 52 % 2 ^ 11 = 2047
  · rw [if_pos hlast, if_pos (unpackExponent_eq_ones_iff.mpr hlast)]
    by_cases hfraction : b.toNat % 2 ^ 52 = 0
    · rw [if_pos hfraction, if_pos (unpackMantissa_eq_zero_iff.mpr hfraction), ofUnpacked,
        isNegative_unpackSign]
    · rw [if_neg hfraction, if_neg (mt unpackMantissa_eq_zero_iff.mp hfraction), ofUnpacked]
  · rw [if_neg hlast, if_neg (mt unpackExponent_eq_ones_iff.mp hlast)]
    by_cases hfirst : b.toNat / 2 ^ 52 % 2 ^ 11 = 0
    · rw [if_pos hfirst, if_pos (unpackExponent_eq_zero_iff.mpr hfirst)]
      by_cases hfraction : b.toNat % 2 ^ 52 = 0
      · rw [dif_pos (unpackMantissa_eq_zero_iff.mpr hfraction), ofUnpacked, isNegative_unpackSign,
          hfraction]
      · rw [dif_neg (mt unpackMantissa_eq_zero_iff.mp hfraction), ofUnpacked,
          isNegative_unpackSign, toNat_unpackMantissa, toNat_unpackExponent, hfirst]
        rfl
    · rw [if_neg hfirst, if_neg (mt unpackExponent_eq_zero_iff.mp hfirst), ofUnpacked,
        isNegative_unpackSign, toNat_unpackExponent, toNat_leading]
      rfl

/-- What is finite has the mantissa and exponent of a double. -/
theorem isCanonical_of_ofFloat {x : Float} {negative : Bool} {m : ℕ} {e : ℤ}
    (h : ofFloat x = .finite negative m e) : IsCanonical m e := by
  rw [ofFloat] at h
  simp only [Nat.pow_eq] at h
  split at h
  · split at h <;> cases h
  · split at h
    · cases h
      exact .inl ⟨Nat.mod_lt _ (Nat.two_pow_pos 52), rfl⟩
    · rename_i hfield
      cases h
      have hfraction := Nat.mod_lt x.toBits.toNat (Nat.two_pow_pos 52)
      refine .inr ⟨Nat.le_add_right _ _, by omega, ?_⟩
      change -1074 ≤ ((x.toBits.toNat / 2 ^ 52 % 2 ^ 11 : ℕ) : ℤ) - 1075
      omega

/-! ## What a double stands for -/

/-- A positive size with a sign is not zero. -/
theorem signed_ne_zero {negative : Bool} {q : ℚ} (hq : 0 < q) : signed negative q ≠ 0 := by
  cases negative
  · exact hq.ne'
  · exact neg_ne_zero.mpr hq.ne'

/-- **A positive size and its sign** can be told from the number. -/
theorem signed_inj {negative negative' : Bool} {q q' : ℚ} (hq : 0 < q) (hq' : 0 < q')
    (h : signed negative q = signed negative' q') : negative = negative' ∧ q = q' := by
  cases negative <;> cases negative' <;>
    simp only [signed, if_true, Bool.false_eq_true, if_false] at h
  · exact ⟨rfl, h⟩
  · linarith
  · linarith
  · exact ⟨rfl, neg_inj.mp h⟩

theorem isNegative_inj {s s' : Sign} (h : (s == .negative) = (s' == .negative)) : s = s' := by
  cases s <;> cases s' <;> first | rfl | cases h

theorem quantity?_zero (s : Sign) : (ofUnpacked (.zero s)).quantity? = some (.finite 0) := by
  cases s <;> simp [ofUnpacked, quantity?, signed]

/-- **What a double is that stands for a quantity**: an infinity, a zero, or a mantissa with an
exponent. -/
theorem cases_of_quantity? {x : Float} {q : Quantity} (h : (ofFloat x).quantity? = some q) :
    (∃ s, x.toModel.unpack = .infinity s ∧ q = .infinite (s == .negative))
      ∨ (∃ s, x.toModel.unpack = .zero s ∧ q = .finite 0)
      ∨ ∃ s m e hm, x.toModel.unpack = .finite s m e hm ∧ IsCanonical m e
        ∧ q = .finite (signed (s == .negative) (m * 2 ^ e)) := by
  cases hx : x.toModel.unpack with
  | notANumber =>
    rw [ofFloat_eq, hx] at h
    cases h
  | infinity s =>
    rw [ofFloat_eq, hx] at h
    exact .inl ⟨s, rfl, (Option.some.inj h).symm⟩
  | zero s =>
    rw [ofFloat_eq, hx, quantity?_zero] at h
    exact .inr (.inl ⟨s, rfl, (Option.some.inj h).symm⟩)
  | finite s m e hm =>
    have hform : ofFloat x = .finite (s == .negative) m e := by rw [ofFloat_eq, hx, ofUnpacked]
    rw [hform] at h
    exact .inr (.inr ⟨s, m, e, hm, rfl, isCanonical_of_ofFloat hform, (Option.some.inj h).symm⟩)

/-- **A double that is a number** stands for a quantity, and no other does. -/
theorem exists_quantity?_iff {x : Float} :
    (∃ q, (ofFloat x).quantity? = some q) ↔ x.toModel.unpack ≠ .notANumber := by
  rw [ofFloat_eq]
  cases hx : x.toModel.unpack with
  | notANumber => exact iff_of_false nofun fun h => h rfl
  | _ => exact iff_of_true ⟨_, rfl⟩ nofun

/-! ## Equality -/

theorem size_pos {m : ℕ} (hm : 0 < m) (e : ℤ) : (0 : ℚ) < m * 2 ^ e :=
  mul_pos (Nat.cast_pos.mpr hm) (zpow_pos two_pos e)

/-- **One quantity** is that of one double only, but for the two zeros. -/
theorem unpack_eq_of_quantity? {x y : Float} {q : Quantity}
    (hx : (ofFloat x).quantity? = some q) (hy : (ofFloat y).quantity? = some q) :
    x.toModel.unpack = y.toModel.unpack
      ∨ ∃ s s', x.toModel.unpack = .zero s ∧ y.toModel.unpack = .zero s' := by
  obtain ⟨s, hs, rfl⟩ | ⟨s, hs, rfl⟩ | ⟨s, m, e, hm, hs, hcanonical, rfl⟩ := cases_of_quantity? hx
  · obtain ⟨s', hs', hq⟩ | ⟨s', -, hq⟩ | ⟨s', m', e', hm', -, -, hq⟩ := cases_of_quantity? hy
    · obtain rfl := isNegative_inj (Quantity.infinite.inj hq)
      exact .inl (hs.trans hs'.symm)
    · cases hq
    · cases hq
  · obtain ⟨s', -, hq⟩ | ⟨s', hs', -⟩ | ⟨s', m', e', hm', -, -, hq⟩ := cases_of_quantity? hy
    · cases hq
    · exact .inr ⟨s, s', hs, hs'⟩
    · exact absurd (Quantity.finite.inj hq).symm (signed_ne_zero (size_pos hm' e'))
  · obtain ⟨s', -, hq⟩ | ⟨s', -, hq⟩ | ⟨s', m', e', hm', hs', hcanonical', hq⟩ :=
      cases_of_quantity? hy
    · cases hq
    · exact absurd (Quantity.finite.inj hq) (signed_ne_zero (size_pos hm e))
    · obtain ⟨hsign, hsizes⟩ :=
        signed_inj (size_pos hm e) (size_pos hm' e') (Quantity.finite.inj hq)
      obtain rfl := isNegative_inj hsign
      obtain ⟨rfl, rfl⟩ := hcanonical.unique hcanonical' hsizes
      exact .inl (hs.trans hs'.symm)

/-- **Doubles are equal exactly if they stand for one quantity.** -/
theorem beq_iff_quantity? {x y : Float} : (x == y) = true
    ↔ ∃ q, (ofFloat x).quantity? = some q ∧ (ofFloat y).quantity? = some q := by
  have hbeq : (x == y) = x.toModel.unpack.beq y.toModel.unpack := rfl
  rw [hbeq, UnpackedFloat.beq_iff_ne_notANumber_and_eq]
  constructor
  · rintro ⟨hx, -, heq | ⟨hpositive, hnegative⟩ | ⟨hnegative, hpositive⟩⟩
    · obtain ⟨q, hq⟩ := exists_quantity?_iff.mpr hx
      refine ⟨q, hq, ?_⟩
      rw [ofFloat_eq, ← heq, ← ofFloat_eq, hq]
    all_goals
      refine ⟨.finite 0, ?_, ?_⟩
      · rw [ofFloat_eq, ‹x.toModel.unpack = _›, quantity?_zero]
      · rw [ofFloat_eq, ‹y.toModel.unpack = _›, quantity?_zero]
  · rintro ⟨q, hx, hy⟩
    refine ⟨exists_quantity?_iff.mp ⟨q, hx⟩, exists_quantity?_iff.mp ⟨q, hy⟩, ?_⟩
    obtain heq | ⟨s, s', hs, hs'⟩ := unpack_eq_of_quantity? hx hy
    · exact .inl heq
    · rw [hs, hs']
      cases s <;> cases s' <;> simp

/-! ## Whole numbers -/

/-- A ratio of whole numbers is the size that it is for. -/
theorem cast_scaled (m : ℕ) (e : ℤ) : 0 < (Ratio.scaled m 2 e).den
    ∧ ((Ratio.scaled m 2 e).num : ℚ) / (Ratio.scaled m 2 e).den = m * 2 ^ e := by
  cases e with
  | ofNat k => simp [Ratio.scaled]
  | negSucc k =>
    refine ⟨Nat.two_pow_pos (k + 1), ?_⟩
    simp [Ratio.scaled, zpow_negSucc, div_eq_mul_inv]

/-- **A size with a sign is a whole number** if the size is that of the number and the sign too. -/
theorem signed_eq_intCast_iff {negative : Bool} {q : ℚ} (hq : 0 ≤ q) {n : ℤ} :
    signed negative q = n ↔ q = n.natAbs ∧ (negative = decide (n < 0) ∨ n = 0) := by
  rw [Nat.cast_natAbs]
  obtain hn | rfl | hn := lt_trichotomy n 0
  · have hcast : (n : ℚ) < 0 := Int.cast_lt_zero.mpr hn
    rw [abs_of_neg hn, decide_eq_true hn, Int.cast_neg, or_iff_left hn.ne]
    cases negative with
    | true => rw [signed, if_pos rfl, and_iff_left rfl, neg_eq_iff_eq_neg]
    | false => exact iff_of_false (fun h => absurd (h ▸ hq : (0 : ℚ) ≤ n) hcast.not_ge) (by simp)
  · cases negative <;> simp [signed]
  · have hcast : (0 : ℚ) < n := Int.cast_pos.mpr hn
    rw [abs_of_pos hn, decide_eq_false hn.not_gt, or_iff_left hn.ne']
    cases negative with
    | true =>
      refine iff_of_false (fun h => ?_) (by simp)
      rw [signed, if_pos rfl] at h
      linarith
    | false => rw [signed, if_neg Bool.false_ne_true, and_iff_left rfl]

end Binary

end MathSpeech.Decimal
