import Mathlib

/-!
# Proofs/Decimal/Whole — whole numbers as doubles

A count or a position becomes a double before it is compared with a number.  Below `2 ^ 53` nothing
is lost: such a double is equal to that of another natural number only if the two are the same,
however large the other is (`Decimal.ofNat_beq_ofNat`).

A positive double is followed through its form `m · 2 ^ e`, where the mantissa `m` has fifty-three
bits.  Rounding to such a form drops only zeros from a small whole number, and leaves a positive
exponent to a large one.
-/

namespace MathSpeech.Decimal

open Float.Model (Format UnpackedFloat totalExponent)
open Float.Model.UnpackedFloat (ExtendedMantissa Sign roundWithAccuracy shiftToTargetExponent
  shiftToExponent packComponents)

/-! ## Shifts -/

theorem shiftRight_succ (x : ExtendedMantissa) (k : Nat) :
    x >>> (k + 1) = (x >>> k).shiftRightOne := rfl

theorem mantissa_shiftRight (x : ExtendedMantissa) (k : Nat) :
    (x >>> k).mantissa = x.mantissa / 2 ^ k := by
  induction k with
  | zero => exact (Nat.div_one _).symm
  | succ k ih =>
    rw [shiftRight_succ, ExtendedMantissa.shiftRightOne, ih, Nat.div_div_eq_div_mul, Nat.pow_succ]

/-- Zeros can be shifted out without a trace. -/
theorem shiftRight_zeros (m k : Nat) :
    (⟨m * 2 ^ k, false, false⟩ : ExtendedMantissa) >>> k = ⟨m, false, false⟩ := by
  induction k generalizing m with
  | zero => rw [Nat.pow_zero, Nat.mul_one]; rfl
  | succ k ih =>
    have hzeros : m * 2 ^ (k + 1) = (2 * m) * 2 ^ k := by ring
    rw [shiftRight_succ, hzeros, ih, ExtendedMantissa.shiftRightOne]
    simp

/-- Rounding goes to the next mantissa at most. -/
theorem roundedMantissa_bounds (x : ExtendedMantissa) :
    x.mantissa ≤ x.roundedMantissa ∧ x.roundedMantissa ≤ x.mantissa + 1 := by
  obtain ⟨m, round, sticky⟩ := x
  cases round <;> cases sticky <;>
    simp [ExtendedMantissa.roundedMantissa, ExtendedMantissa.accuracy,
      Float.Model.UnpackedFloat.Accuracy.roundToNearestEven]
  omega

theorem log2_mul_two_pow {m : Nat} (hm : m ≠ 0) (k : Nat) : (m * 2 ^ k).log2 = m.log2 + k := by
  have hpos : 0 < 2 ^ k := Nat.two_pow_pos k
  rw [Nat.log2_eq_iff (Nat.mul_ne_zero hm hpos.ne')]
  constructor
  · rw [Nat.pow_add]
    exact Nat.mul_le_mul_right _ (Nat.log2_self_le hm)
  · rw [Nat.add_right_comm, Nat.pow_add]
    exact Nat.mul_lt_mul_of_pos_right Nat.lt_log2_self hpos

/-- **The exponent to round to**, far from the least one. -/
theorem targetExponent_eq {m : Nat} {e : Int} (he : -1022 ≤ m.log2 + e) :
    Format.binary64.targetExponent (totalExponent m e) = m.log2 + e - 52 := by
  simp only [Format.targetExponent, totalExponent, Format.mantissaBits, Format.minExponent]
  norm_num
  omega

/-- A mantissa with bits to spare is shifted to fifty-three bits. -/
theorem shiftToTargetExponent_eq {m k : Nat} {e : Int} (hm : m.log2 = 52 + k)
    (he : -1074 ≤ e + k) :
    shiftToTargetExponent Format.binary64 m e .exact
      = ((⟨m, false, false⟩ : ExtendedMantissa) >>> k, e + k) := by
  have htarget := targetExponent_eq (m := m) (e := e) (by omega)
  have hshift : (Format.binary64.targetExponent (totalExponent m e) - e).toNat = k := by omega
  rw [shiftToTargetExponent, shiftToExponent, hshift]
  rfl

/-! ## Rounding -/

/-- A mantissa of fifty-three bits is not zero. -/
theorem pos_of_log2 {m : Nat} (hm : m.log2 = 52) : 0 < m := by
  refine Nat.pos_of_ne_zero ?_
  rintro rfl
  cases hm

/-- What is rounded already is not rounded again. -/
theorem shiftToTargetExponent_of_normal {m : Nat} {e : Int} (hm : m.log2 = 52)
    (he : -1074 ≤ e) :
    shiftToTargetExponent Format.binary64 m e .exact = (⟨m, false, false⟩, e) := by
  rw [shiftToTargetExponent_eq (k := 0) hm (by omega)]
  exact congrArg (Prod.mk _) (Int.add_zero e)

/-- **Rounding drops zeros**, and is exact then. -/
theorem roundWithAccuracy_zeros {m k : Nat} {e : Int} (hm : m.log2 = 52) (he : -1074 ≤ e + k) :
    roundWithAccuracy Format.binary64 .positive (m * 2 ^ k) e .exact
      = .finite .positive m (e + k) (pos_of_log2 hm) := by
  have hne : m ≠ 0 := (pos_of_log2 hm).ne'
  have hlog : (m * 2 ^ k).log2 = 52 + k := hm ▸ log2_mul_two_pow hne k
  have hrounded : (⟨m, false, false⟩ : ExtendedMantissa).roundedMantissa = m := rfl
  simp only [roundWithAccuracy, shiftToTargetExponent_eq hlog he, shiftRight_zeros, hrounded,
    shiftToTargetExponent_of_normal hm he, dif_neg hne]

/-- **A long mantissa is rounded to fifty-three bits**, and the exponent grows by the bits that are
lost at least. -/
theorem exists_roundWithAccuracy {m k : Nat} {e : Int} (hm : m.log2 = 52 + k)
    (he : -1074 ≤ e + k) :
    ∃ m' e', ∃ hm' : m'.log2 = 52, e + k ≤ e' ∧
      roundWithAccuracy Format.binary64 .positive m e .exact
        = .finite .positive m' e' (pos_of_log2 hm') := by
  obtain ⟨x, hx⟩ : ∃ x, x = (⟨m, false, false⟩ : ExtendedMantissa) >>> k := ⟨_, rfl⟩
  have hmantissa : x.mantissa = m / 2 ^ k := hx ▸ mantissa_shiftRight _ k
  have hne : m ≠ 0 := by
    rintro rfl
    rw [Nat.log2_zero] at hm
    omega
  obtain ⟨hlow, hhigh⟩ := (Nat.log2_eq_iff hne).mp hm
  have hlow' : 2 ^ 52 ≤ x.mantissa := by
    rw [hmantissa, Nat.le_div_iff_mul_le (Nat.two_pow_pos k), ← Nat.pow_add]
    exact hlow
  have hhigh' : x.mantissa < 2 ^ 53 := by
    rw [hmantissa, Nat.div_lt_iff_lt_mul (Nat.two_pow_pos k), ← Nat.pow_add]
    exact hhigh.trans_eq (congrArg _ (Nat.add_right_comm 52 k 1))
  obtain ⟨hround, hround'⟩ := roundedMantissa_bounds x
  obtain hcarry | hcarry := (hround'.trans hhigh').eq_or_lt
  · -- the mantissa has become a power of two, which is shifted once more
    have hlog : (2 ^ 52 : Nat).log2 = 52 := by decide +kernel
    have hpower : (2 ^ 53 : Nat).log2 = 52 + 1 := by decide +kernel
    have hsecond : shiftToTargetExponent Format.binary64 x.roundedMantissa (e + k) .exact
        = (⟨2 ^ 52, false, false⟩, e + k + 1) := by
      rw [hcarry, shiftToTargetExponent_eq hpower (by omega)]
      exact congrArg (·, e + k + 1) (shiftRight_zeros (2 ^ 52) 1)
    refine ⟨2 ^ 52, e + k + 1, hlog, by omega, ?_⟩
    simp only [roundWithAccuracy, shiftToTargetExponent_eq hm he, ← hx, hsecond]
    exact dif_neg (pos_of_log2 hlog).ne'
  · have hlog : x.roundedMantissa.log2 = 52 :=
      (Nat.log2_eq_iff (by omega)).mpr ⟨hlow'.trans hround, hcarry⟩
    refine ⟨x.roundedMantissa, e + k, hlog, le_rfl, ?_⟩
    simp only [roundWithAccuracy, shiftToTargetExponent_eq hm he, ← hx,
      shiftToTargetExponent_of_normal hlog he, dif_neg (pos_of_log2 hlog).ne']

/-! ## Packing -/

/-- A mantissa of fifty-three bits without its first bit, and with the bit again. -/
theorem toNat_append_of_log2 {m : Nat} (hm : m.log2 = 52) :
    (1#1 ++ BitVec.ofNat 52 m).toNat = m := by
  obtain ⟨hlow, hhigh⟩ := (Nat.log2_eq_iff (pos_of_log2 hm).ne').mp hm
  rw [BitVec.toNat_append, BitVec.toNat_ofNat, BitVec.toNat_ofNat, Nat.shiftLeft_eq,
    Nat.mul_comm, ← Nat.two_pow_add_eq_or_of_lt (Nat.mod_lt _ (Nat.two_pow_pos 52))]
  omega

/-- What components with an exponent between the extremes stand for. -/
theorem unpack_packComponents {m b : Nat} (hm : m.log2 = 52) (hb : 0 < b) (hb' : b < 2047) :
    UnpackedFloat.unpack Format.binary64
        (packComponents Format.binary64 .positive (BitVec.ofNat 11 b) (BitVec.ofNat 52 m))
      = .finite .positive m (b - 1075) (pos_of_log2 hm) := by
  have htoNat : (BitVec.ofNat 11 b).toNat = b := by
    rw [BitVec.toNat_ofNat]
    omega
  have hones : BitVec.ofNat 11 b ≠ -1#_ := fun h => by
    have hvalue := congrArg BitVec.toNat h
    rw [htoNat] at hvalue
    exact absurd hvalue (Nat.ne_of_lt hb')
  have hzeros : BitVec.ofNat 11 b ≠ 0#_ := fun h => by
    have hvalue := congrArg BitVec.toNat h
    rw [htoNat] at hvalue
    exact absurd hvalue hb.ne'
  simp only [UnpackedFloat.unpack, UnpackedFloat.unpackExponent_packComponents,
    UnpackedFloat.unpackMantissa_packComponents, UnpackedFloat.unpackSign_packComponents,
    if_neg hones, if_neg hzeros, htoNat, toNat_append_of_log2 hm]
  rfl

/-- **A mantissa of fifty-three bits is kept**, unless the exponent is too large. -/
theorem unpack_pack {m : Nat} {e : Int} (hm : m.log2 = 52) (he : -1074 ≤ e) :
    (Float.Model.pack (.finite .positive m e (pos_of_log2 hm))).unpack
      = if e ≤ 971 then .finite .positive m e (pos_of_log2 hm) else .infinity .positive := by
  have hpack : (Float.Model.pack (.finite .positive m e (pos_of_log2 hm))).unpack
      = UnpackedFloat.unpack Format.binary64 (if 2048 ≤ (e + 1023 + 52).toNat + 1 then
          UnpackedFloat.packedInfinity Format.binary64 .positive
        else if m.log2 + 1 = 53 then
          packComponents Format.binary64 .positive (BitVec.ofNat 11 (e + 1023 + 52).toNat)
            (BitVec.ofNat 52 m)
        else packComponents Format.binary64 .positive 0#_ (BitVec.ofNat 52 m)) := rfl
  rw [hpack, hm, if_pos rfl]
  split_ifs with hlarge hfits hfits
  · omega
  · rfl
  · rw [unpack_packComponents hm (by omega) (by omega)]
    have hexponent : ((e + 1023 + 52).toNat : Int) - 1075 = e := by omega
    rw [hexponent]
  · omega

/-! ## Whole numbers -/

/-- The mantissa of a small whole number. -/
theorem log2_mantissa {n : Nat} (hne : n ≠ 0) (hn : n < 2 ^ 53) :
    (n * 2 ^ (52 - n.log2)).log2 = 52 := by
  have hlog : n.log2 < 53 := (Nat.log2_lt hne).mpr hn
  rw [log2_mul_two_pow hne]
  omega

/-- A small whole number is rounded without loss. -/
theorem round_of_lt {n : Nat} (hne : n ≠ 0) (hn : n < 2 ^ 53) :
    UnpackedFloat.round Format.binary64 .positive n 0
      = .finite .positive (n * 2 ^ (52 - n.log2)) (n.log2 - 52)
          (pos_of_log2 (log2_mantissa hne hn)) := by
  have hlog : n.log2 < 53 := (Nat.log2_lt hne).mpr hn
  have hshift : (0 - ((n.log2 : Int) + 0 - 52)).toNat = 52 - n.log2 := by omega
  have hexponent : (0 : Int) - (52 - n.log2 : Nat) = n.log2 - 52 := by omega
  rw [UnpackedFloat.round, targetExponent_eq (by omega), UnpackedFloat.decreaseExponent, hshift,
    hexponent, Nat.shiftLeft_eq]
  have hzeros := roundWithAccuracy_zeros (k := 0) (e := n.log2 - 52) (log2_mantissa hne hn)
    (by omega)
  simpa only [Nat.pow_zero, Nat.mul_one, Int.ofNat_zero, Int.add_zero] using hzeros

/-- A small whole number is a double. -/
theorem unpack_ofUInt64 {n : Nat} (hne : n ≠ 0) (hn : n < 2 ^ 53) :
    (Float.Model.ofUInt64 n.toUInt64).unpack
      = .finite .positive (n * 2 ^ (52 - n.log2)) (n.log2 - 52)
          (pos_of_log2 (log2_mantissa hne hn)) := by
  have hlog : n.log2 < 53 := (Nat.log2_lt hne).mpr hn
  have htoNat : n.toUInt64.toNat = n := Nat.mod_eq_of_lt (hn.trans (by decide))
  have hcompare : compare (n : Int) 0 = .gt := compare_gt_iff_gt.mpr (by omega)
  have hround : UnpackedFloat.ofUInt64 Format.binary64 n.toUInt64
      = UnpackedFloat.round Format.binary64 .positive n 0 := by
    rw [UnpackedFloat.ofUInt64, htoNat, UnpackedFloat.ofNat, UnpackedFloat.ofInt,
      UnpackedFloat.normalize, hcompare]
    rfl
  rw [Float.Model.ofUInt64, hround, round_of_lt hne hn,
    unpack_pack (log2_mantissa hne hn) (by omega), if_pos (by omega)]

theorem unpack_one : (Float.Model.ofBits 0x3FF0000000000000).unpack
    = .finite .positive (2 ^ 52) (-52) (Nat.two_pow_pos 52) := rfl

/-- **A small whole number** keeps its value as a double. -/
theorem unpack_ofNat_of_lt {n : Nat} (hne : n ≠ 0) (hn : n < 2 ^ 53) :
    (Float.ofNat n).toModel.unpack
      = .finite .positive (n * 2 ^ (52 - n.log2)) (n.log2 - 52)
          (pos_of_log2 (log2_mantissa hne hn)) := by
  have hlog : n.log2 < 53 := (Nat.log2_lt hne).mpr hn
  have hfast : Float.ofNat n = n.toUInt64.toFloat * Float.ofBits 0x3FF0000000000000 :=
    dif_pos ⟨hn, by decide⟩
  have hmodel : (Float.ofNat n).toModel.unpack
      = (Float.Model.pack (UnpackedFloat.mul Format.binary64
          (Float.Model.ofUInt64 n.toUInt64).unpack
          (Float.Model.ofBits 0x3FF0000000000000).unpack)).unpack := by rw [hfast]; rfl
  have hexponent : (n.log2 : Int) - 52 + -52 + (52 : Nat) = n.log2 - 52 := by omega
  have hproduct := roundWithAccuracy_zeros (k := 52) (e := n.log2 - 52 + -52)
    (log2_mantissa hne hn) (by omega)
  simp only [hexponent] at hproduct
  have hmul : UnpackedFloat.mul Format.binary64
      (.finite .positive (n * 2 ^ (52 - n.log2)) (n.log2 - 52)
        (pos_of_log2 (log2_mantissa hne hn)))
      (.finite .positive (2 ^ 52) (-52) (Nat.two_pow_pos 52))
      = .finite .positive (n * 2 ^ (52 - n.log2)) (n.log2 - 52)
          (pos_of_log2 (log2_mantissa hne hn)) := hproduct
  rw [hmodel, unpack_ofUInt64 hne hn, unpack_one, hmul,
    unpack_pack (log2_mantissa hne hn) (by omega), if_pos (by omega)]

/-- **A large whole number** has a positive exponent as a double, if it is finite at all. -/
theorem unpack_ofNat_of_le {n : Nat} (hn : 2 ^ 53 ≤ n) :
    (Float.ofNat n).toModel.unpack = .infinity .positive
      ∨ ∃ m e h, 0 < e ∧ (Float.ofNat n).toModel.unpack = .finite .positive m e h := by
  have hne : n ≠ 0 := by omega
  have hlog : 53 ≤ n.log2 := (Nat.le_log2 hne).mpr hn
  have hslow : Float.ofNat n = .ofModel (Float.Model.ofScientific n 0) :=
    dif_neg fun h => absurd h.1 (Nat.not_lt.mpr hn)
  have hround : UnpackedFloat.ofScientific Format.binary64 n 0
      = roundWithAccuracy Format.binary64 .positive (n <<< 53 * 10 ^ 0) (-53 + 0) .exact := by
    have hsmall : ¬(0 : Int) > 2 ^ Format.binary64.exponentBits := by decide
    have hlarge : ¬(0 : Int) < -((2 ^ Format.binary64.exponentBits : Int) + n.log2) := by
      change ¬(0 : Int) < -(2048 + n.log2)
      omega
    rw [UnpackedFloat.ofScientific, dif_neg hne, if_neg hsmall, if_neg hlarge, if_pos le_rfl]
    rfl
  have hbits : (n <<< 53 * 10 ^ 0).log2 = 52 + (n.log2 + 1) := by
    rw [Nat.pow_zero, Nat.mul_one, Nat.shiftLeft_eq, log2_mul_two_pow hne]
    omega
  obtain ⟨m, e, hm, he, hrounded⟩ := exists_roundWithAccuracy (e := -53 + 0) hbits (by omega)
  have hmodel : (Float.ofNat n).toModel.unpack
      = if e ≤ 971 then .finite .positive m e (pos_of_log2 hm) else .infinity .positive := by
    rw [hslow, Float.Model.ofScientific, hround, hrounded, unpack_pack hm (by omega)]
  rw [hmodel]
  split
  · exact .inr ⟨m, e, pos_of_log2 hm, by omega, rfl⟩
  · exact .inl rfl

theorem unpack_ofNat_zero : (Float.ofNat 0).toModel.unpack = .zero .positive := rfl

/-! ## Comparing -/

theorem compare_finite_eq_iff {m m' : Nat} {e e' : Int} {h : 0 < m} {h' : 0 < m'} :
    UnpackedFloat.compare (.finite .positive m e h) (.finite .positive m' e' h') = some .eq
      ↔ e = e' ∧ m = m' := by
  rw [UnpackedFloat.compare, Option.some_inj, Ordering.then_eq_eq, compare_eq_iff_eq,
    compare_eq_iff_eq]

/-- A small whole number has no positive exponent, and is not infinite. -/
theorem compare_ofNat_ne_of_le {k n : Nat} (hk : k < 2 ^ 53) (hn : 2 ^ 53 ≤ n) :
    UnpackedFloat.compare (Float.ofNat k).toModel.unpack (Float.ofNat n).toModel.unpack
        ≠ some .eq
      ∧ UnpackedFloat.compare (Float.ofNat n).toModel.unpack (Float.ofNat k).toModel.unpack
        ≠ some .eq := by
  by_cases hzero : k = 0
  · obtain hlarge | ⟨m, e, h, -, hlarge⟩ := unpack_ofNat_of_le hn
    all_goals
      rw [hzero, unpack_ofNat_zero, hlarge]
      exact ⟨nofun, nofun⟩
  · rw [unpack_ofNat_of_lt hzero hk]
    obtain hlarge | ⟨m, e, h, he, hlarge⟩ := unpack_ofNat_of_le hn
    · rw [hlarge]
      exact ⟨nofun, nofun⟩
    · have hlog : k.log2 < 53 := (Nat.log2_lt hzero).mpr hk
      rw [hlarge, Ne, Ne, compare_finite_eq_iff, compare_finite_eq_iff]
      omega

/-- Small whole numbers with the same parts are the same. -/
theorem compare_ofNat_of_lt {k n : Nat} (hk : k < 2 ^ 53) (hn : n < 2 ^ 53) :
    UnpackedFloat.compare (Float.ofNat k).toModel.unpack (Float.ofNat n).toModel.unpack = some .eq
      ↔ k = n := by
  by_cases hzero : k = 0 <;> by_cases hzero' : n = 0
  · rw [hzero, hzero']
    exact iff_of_true rfl rfl
  · rw [hzero, unpack_ofNat_zero, unpack_ofNat_of_lt hzero' hn]
    exact iff_of_false nofun (Ne.symm hzero')
  · rw [hzero', unpack_ofNat_zero, unpack_ofNat_of_lt hzero hk]
    exact iff_of_false nofun hzero
  · rw [unpack_ofNat_of_lt hzero hk, unpack_ofNat_of_lt hzero' hn, compare_finite_eq_iff]
    constructor
    · rintro ⟨hexponent, hmantissa⟩
      have hlog : k.log2 = n.log2 := by omega
      rw [hlog] at hmantissa
      exact Nat.eq_of_mul_eq_mul_right (Nat.two_pow_pos _) hmantissa
    · rintro rfl
      exact ⟨rfl, rfl⟩

/-- **A small whole number is equal to no other whole number** as a double. -/
theorem ofNat_beq_ofNat {k n : Nat} (h : k < 2 ^ 53 ∨ n < 2 ^ 53) :
    (Float.ofNat k == Float.ofNat n) = decide (k = n) := by
  have hbeq : (Float.ofNat k == Float.ofNat n) = (UnpackedFloat.compare
      (Float.ofNat k).toModel.unpack (Float.ofNat n).toModel.unpack == some .eq) := rfl
  rw [hbeq, Bool.eq_iff_iff, beq_iff_eq, decide_eq_true_iff]
  by_cases hk : k < 2 ^ 53 <;> by_cases hn : n < 2 ^ 53
  · exact compare_ofNat_of_lt hk hn
  · exact iff_of_false (compare_ofNat_ne_of_le hk (Nat.not_lt.mp hn)).1 (by omega)
  · exact iff_of_false (compare_ofNat_ne_of_le hn (Nat.not_lt.mp hk)).2 (by omega)
  · omega

end MathSpeech.Decimal
