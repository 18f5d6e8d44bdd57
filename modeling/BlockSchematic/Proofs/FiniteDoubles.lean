import BlockSchematic.Schematic.Basic
import Mathlib

/-!
# Finite doubles

A finite double is a whole mantissa times a power of two. What an operation gives is the nearest
double to its exact result, so it lies at most half a unit of the last kept bit above it, and it is
finite as long as the exact result stays half such a unit below the first power of two that is too
large.
-/

namespace BlockSchematic.Doubles

open Float.Model (Format UnpackedFloat totalExponent)
open Float.Model.UnpackedFloat

/-! ## Shifting out bits -/

theorem mantissa_le_roundedMantissa (em : ExtendedMantissa) :
    em.mantissa ≤ em.roundedMantissa := by
  obtain ⟨m, _ | _, _ | _⟩ := em <;>
    simp [ExtendedMantissa.roundedMantissa, ExtendedMantissa.accuracy,
      Accuracy.roundToNearestEven]

theorem mantissa_shift (em : ExtendedMantissa) (n : Nat) :
    (em >>> n).mantissa = em.mantissa / 2 ^ n := by
  induction n with
  | zero => exact (Nat.div_one _).symm
  | succ n ih =>
    have last : (em >>> (n + 1)).mantissa = (em >>> n).mantissa / 2 := rfl
    rw [last, ih, Nat.div_div_eq_div_mul, Nat.pow_succ]

theorem roundedMantissa_shiftRightOne_le (em : ExtendedMantissa) :
    2 * em.shiftRightOne.roundedMantissa ≤ em.mantissa + 1 := by
  obtain ⟨m, r, s⟩ := em
  rcases Nat.mod_two_eq_zero_or_one m with even | odd
  · cases r <;> cases s <;>
      simp [ExtendedMantissa.shiftRightOne, ExtendedMantissa.roundedMantissa,
        ExtendedMantissa.accuracy, Accuracy.roundToNearestEven, even] <;> omega
  · cases r <;> cases s <;>
      simp [ExtendedMantissa.shiftRightOne, ExtendedMantissa.roundedMantissa,
        ExtendedMantissa.accuracy, Accuracy.roundToNearestEven, odd] <;> omega

/-- The mantissa as it is before any bit is shifted out. -/
def unshifted (m : Nat) : ExtendedMantissa := .ofMantissaAndAccuracy m .exact

/-- Rounding adds at most half of the last bit that is kept. -/
theorem two_mul_roundedMantissa_le (m n : Nat) :
    2 * ((unshifted m >>> n).roundedMantissa * 2 ^ n) ≤ 2 * m + 2 ^ n := by
  cases n with
  | zero => exact (Nat.le_add_right (2 * (m * 1)) 1).trans (by simp)
  | succ n =>
    have step : 2 * (unshifted m >>> (n + 1)).roundedMantissa ≤ m / 2 ^ n + 1 := by
      have last := roundedMantissa_shiftRightOne_le (unshifted m >>> n)
      rwa [mantissa_shift] at last
    calc
      2 * ((unshifted m >>> (n + 1)).roundedMantissa * 2 ^ (n + 1))
        = 2 * (unshifted m >>> (n + 1)).roundedMantissa * 2 ^ n * 2 := by ring
      _ ≤ (m / 2 ^ n + 1) * 2 ^ n * 2 := Nat.mul_le_mul_right _ (Nat.mul_le_mul_right _ step)
      _ = m / 2 ^ n * 2 ^ n * 2 + 2 ^ (n + 1) := by ring
      _ ≤ 2 * m + 2 ^ (n + 1) := by
        have floor := Nat.div_mul_le_self m (2 ^ n)
        omega

/-! ## Rounding -/

/-- The exponent of the last bit that a double keeps of `m * 2 ^ e`. -/
def lastBit (m : Nat) (e : Int) : Int := max (m.log2 + e - 52) (-1074)

theorem targetExponent_eq (m : Nat) (e : Int) :
    Format.binary64.targetExponent (totalExponent m e) = lastBit m e := by
  simp only [Format.targetExponent, totalExponent, Format.mantissaBits, Format.minExponent, lastBit]
  norm_num
  omega

theorem shiftToTargetExponent_eq {m : Nat} {e : Int} (kept : e ≤ lastBit m e) :
    shiftToTargetExponent Format.binary64 m e .exact =
      (unshifted m >>> (lastBit m e - e).toNat, lastBit m e) := by
  simp only [shiftToTargetExponent, targetExponent_eq, shiftToExponent, unshifted]
  congr 1
  omega

theorem shiftToTargetExponent_fitting {m : Nat} (fits : m < 2 ^ 53) {e : Int} (least : -1074 ≤ e) :
    shiftToTargetExponent Format.binary64 m e .exact = (unshifted m, e) := by
  have small : m.log2 ≤ 52 := by
    rcases Nat.eq_zero_or_pos m with rfl | positive
    · simp
    · have := (Nat.log2_lt positive.ne').2 fits
      omega
  have none : (lastBit m e - e).toNat = 0 := by
    rw [lastBit]
    omega
  simp only [shiftToTargetExponent, targetExponent_eq, shiftToExponent, none]
  exact Prod.ext rfl (Int.add_zero e)

theorem shiftToTargetExponent_carry {e : Int} (least : -1074 ≤ e) :
    shiftToTargetExponent Format.binary64 (2 ^ 53) e .exact =
      ((unshifted (2 ^ 53)).shiftRightOne, e + 1) := by
  have one : (lastBit (2 ^ 53) e - e).toNat = 1 := by
    rw [lastBit, Nat.log2_two_pow]
    omega
  simp only [shiftToTargetExponent, targetExponent_eq, shiftToExponent, one]
  rfl

/-- The mantissa has as many bits as a double keeps, or fewer at the least exponent. -/
def Canonical : UnpackedFloat → Prop
  | .zero _ => True
  | .finite _ m e _ => m < 2 ^ 53 ∧ -1074 ≤ e ∧ (2 ^ 52 ≤ m ∨ e = -1074)
  | _ => False

/-- The distance from zero. -/
def magnitude : UnpackedFloat → ℚ
  | .finite _ m e _ => m * 2 ^ e
  | _ => 0

/-- The mantissa that is kept of `m * 2 ^ e`, as a multiple of `2 ^ lastBit m e`. -/
def keptMantissa (m : Nat) (e : Int) : Nat :=
  (unshifted m >>> (lastBit m e - e).toNat).roundedMantissa

theorem keptMantissa_le (m : Nat) (e : Int) :
    2 * (keptMantissa m e * 2 ^ (lastBit m e - e).toNat) ≤
      2 * m + 2 ^ (lastBit m e - e).toNat := two_mul_roundedMantissa_le _ _

theorem keptMantissa_le_carry (m : Nat) (e : Int) : keptMantissa m e ≤ 2 ^ 53 := by
  have rounded := keptMantissa_le m e
  have bits : m < 2 ^ (53 + (lastBit m e - e).toNat) := by
    refine Nat.lt_of_lt_of_le Nat.lt_log2_self (Nat.pow_le_pow_right (by decide) ?_)
    rw [lastBit]
    omega
  rw [Nat.pow_add] at bits
  have positive : 0 < 2 ^ (lastBit m e - e).toNat := Nat.two_pow_pos _
  by_contra more
  have carried := Nat.mul_le_mul_right (2 ^ (lastBit m e - e).toNat) (Nat.lt_of_not_le more)
  rw [Nat.succ_mul] at carried
  omega

theorem le_keptMantissa {m : Nat} {e : Int} (positive : 0 < m) (kept : e ≤ lastBit m e) :
    2 ^ 52 ≤ keptMantissa m e ∨ lastBit m e = -1074 := by
  refine or_iff_not_imp_right.2 fun normal => ?_
  have bits : m.log2 = 52 + (lastBit m e - e).toNat := by
    rw [lastBit] at *
    omega
  refine Nat.le_trans ?_ (mantissa_le_roundedMantissa _)
  rw [mantissa_shift, Nat.le_div_iff_mul_le (Nat.two_pow_pos _), ← Nat.pow_add, ← bits]
  exact Nat.log2_self_le positive.ne'

theorem roundWithAccuracy_eq (s : Sign) {m : Nat} {e : Int} (kept : e ≤ lastBit m e) :
    roundWithAccuracy Format.binary64 s m e .exact =
      if keptMantissa m e < 2 ^ 53 then
        if h : keptMantissa m e = 0 then .zero s
        else .finite s (keptMantissa m e) (lastBit m e) (Nat.pos_of_ne_zero h)
      else .finite s (2 ^ 52) (lastBit m e + 1) (Nat.two_pow_pos 52) := by
  have least : -1074 ≤ lastBit m e := le_max_right _ _
  have first : (unshifted m >>> (lastBit m e - e).toNat).roundedMantissa = keptMantissa m e := rfl
  simp only [roundWithAccuracy, shiftToTargetExponent_eq kept, first]
  by_cases fits : keptMantissa m e < 2 ^ 53
  · simp only [shiftToTargetExponent_fitting fits least, if_pos fits]
    rfl
  · have full : keptMantissa m e = 2 ^ 53 :=
      Nat.le_antisymm (keptMantissa_le_carry m e) (Nat.le_of_not_lt fits)
    simp only [full, shiftToTargetExponent_carry least, Nat.lt_irrefl, if_false]
    rfl

theorem canonical_roundWithAccuracy (s : Sign) {m : Nat} {e : Int} (positive : 0 < m)
    (kept : e ≤ lastBit m e) : Canonical (roundWithAccuracy Format.binary64 s m e .exact) := by
  have least : -1074 ≤ lastBit m e := le_max_right _ _
  rw [roundWithAccuracy_eq s kept]
  split
  · rename_i fits
    split
    · trivial
    · exact ⟨fits, least, le_keptMantissa positive kept⟩
  · exact ⟨by decide, by omega, .inl (Nat.le_refl _)⟩

theorem magnitude_roundWithAccuracy (s : Sign) {m : Nat} {e : Int} (kept : e ≤ lastBit m e) :
    magnitude (roundWithAccuracy Format.binary64 s m e .exact) =
      keptMantissa m e * 2 ^ lastBit m e := by
  rw [roundWithAccuracy_eq s kept]
  split
  · split
    · rename_i none
      rw [none, Nat.cast_zero, zero_mul]
      rfl
    · rfl
  · rename_i carry
    have full : keptMantissa m e = 2 ^ 53 :=
      Nat.le_antisymm (keptMantissa_le_carry m e) (Nat.le_of_not_lt carry)
    rw [full, magnitude, zpow_add_one₀ two_ne_zero]
    push_cast
    ring

/-- Rounding adds at most half a unit of the last kept bit. -/
theorem magnitude_roundWithAccuracy_le (s : Sign) {m : Nat} {e : Int} (kept : e ≤ lastBit m e) :
    magnitude (roundWithAccuracy Format.binary64 s m e .exact) ≤
      m * 2 ^ e + 2 ^ (lastBit m e - 1) := by
  have shifted : lastBit m e = e + ((lastBit m e - e).toNat : Int) := by omega
  have rounded : (2 : ℚ) * (keptMantissa m e * 2 ^ (lastBit m e - e).toNat) ≤
      2 * m + 2 ^ (lastBit m e - e).toNat := by exact_mod_cast keptMantissa_le m e
  have unit : (2 : ℚ) ^ lastBit m e = 2 ^ e * 2 ^ (lastBit m e - e).toNat := by
    conv_lhs => rw [shifted, zpow_add₀ two_ne_zero, zpow_natCast]
  have scaled := mul_le_mul_of_nonneg_right rounded (zpow_nonneg zero_le_two e : (0 : ℚ) ≤ 2 ^ e)
  rw [magnitude_roundWithAccuracy s kept, zpow_sub_one₀ two_ne_zero, unit]
  linarith

theorem lastBit_shiftLeft {m : Nat} (positive : 0 < m) (e : Int) (k : Nat) :
    lastBit (m <<< k) (e - k) = lastBit m e := by
  have bits : (m <<< k).log2 = m.log2 + k := by
    have unit := Nat.two_pow_pos k
    rw [Nat.shiftLeft_eq, Nat.log2_eq_iff (Nat.mul_pos positive unit).ne', Nat.add_right_comm,
      Nat.pow_add, Nat.pow_add]
    exact ⟨Nat.mul_le_mul_right _ (Nat.log2_self_le positive.ne'),
      Nat.mul_lt_mul_of_pos_right Nat.lt_log2_self unit⟩
  rw [lastBit, lastBit, bits]
  omega

theorem shiftLeft_value (m k : Nat) (e : Int) :
    ((m <<< k : Nat) : ℚ) * 2 ^ (e - k) = m * 2 ^ e := by
  have unit : (2 : ℚ) ^ e = 2 ^ (k : Int) * 2 ^ (e - k) := by
    rw [← zpow_add₀ two_ne_zero]
    congr 1
    omega
  rw [Nat.shiftLeft_eq, unit, zpow_natCast]
  push_cast
  ring

theorem round_spec (s : Sign) {m : Nat} (positive : 0 < m) (e : Int) :
    Canonical (UnpackedFloat.round Format.binary64 s m e) ∧
      magnitude (UnpackedFloat.round Format.binary64 s m e) ≤ m * 2 ^ e + 2 ^ (lastBit m e - 1) := by
  have longer : 0 < m <<< (e - lastBit m e).toNat := by
    rw [Nat.shiftLeft_eq]
    exact Nat.mul_pos positive (Nat.two_pow_pos _)
  have same := lastBit_shiftLeft positive e (e - lastBit m e).toNat
  have kept : e - ((e - lastBit m e).toNat : Int) ≤
      lastBit (m <<< (e - lastBit m e).toNat) (e - (e - lastBit m e).toNat) := by
    rw [same]
    omega
  have bound := magnitude_roundWithAccuracy_le s kept
  rw [same, shiftLeft_value] at bound
  simp only [UnpackedFloat.round, decreaseExponent, targetExponent_eq]
  exact ⟨canonical_roundWithAccuracy s longer kept, bound⟩

theorem normalize_spec (m e : Int) (zeroSign : Sign) :
    Canonical (UnpackedFloat.normalize Format.binary64 m e zeroSign) ∧
      magnitude (UnpackedFloat.normalize Format.binary64 m e zeroSign) ≤
        m.natAbs * 2 ^ e + 2 ^ (lastBit m.natAbs e - 1) := by
  have room : (0 : ℚ) ≤ m.natAbs * 2 ^ e + 2 ^ (lastBit m.natAbs e - 1) := by positivity
  rw [UnpackedFloat.normalize]
  split
  · rename_i below
    have negative : m < 0 := Int.compare_eq_lt.1 below
    have size : (-m).toNat = m.natAbs := by omega
    rw [size]
    exact round_spec .negative (by omega) e
  · exact ⟨trivial, room⟩
  · rename_i above
    have positive : 0 < m := Int.compare_eq_gt.1 above
    have size : m.toNat = m.natAbs := by omega
    rw [size]
    exact round_spec .positive (by omega) e

/-! ## Packing -/

theorem toNat_implicit {m : Nat} (normal : 2 ^ 52 ≤ m ∧ m < 2 ^ 53) :
    (1#1 ++ BitVec.ofNat 52 m).toNat = m := by
  have high : (1#1).toNat <<< 52 = 2 ^ 52 := rfl
  have low : (BitVec.ofNat 52 m).toNat = m % 2 ^ 52 := BitVec.toNat_ofNat m 52
  rw [BitVec.toNat_append, ← Nat.shiftLeft_add_eq_or_of_lt (BitVec.isLt _), high, low]
  omega

theorem ofBitVec_unpackSign (s : Sign) (e : BitVec 11) (m : BitVec 52) :
    Sign.ofBitVec (unpackSign (packComponents Format.binary64 s e m)) = s := by
  rw [unpackSign_packComponents, Sign.ofBitVec_toBitVec]

/-- The first power of two that is too large for a double. -/
def top : ℚ := 2 ^ (1024 : Int)

theorem exponent_le_of_magnitude_lt {s : Sign} {m : Nat} {e : Int} {positive : 0 < m}
    (canonical : Canonical (.finite s m e positive))
    (below : magnitude (.finite s m e positive) < top) : e ≤ 971 := by
  obtain ⟨-, -, normal | least⟩ := canonical
  · by_contra large
    have mantissa : (2 : ℚ) ^ (52 : Int) ≤ m := by exact_mod_cast normal
    have exponent : (2 : ℚ) ^ (972 : Int) ≤ 2 ^ e :=
      zpow_le_zpow_right₀ one_le_two (by omega)
    have product : (2 : ℚ) ^ (52 : Int) * 2 ^ (972 : Int) ≤ m * 2 ^ e :=
      mul_le_mul mantissa exponent (by positivity) (by positivity)
    rw [← zpow_add₀ two_ne_zero] at product
    exact absurd (product.trans_lt below) (lt_irrefl _)
  · omega

theorem unpack_normal (s : Sign) {e : BitVec 11} (first : e ≠ 0#11) (last : e ≠ -1#11)
    {m : BitVec 52} (positive : 0 < (1#1 ++ m).toNat) :
    unpack Format.binary64 (packComponents Format.binary64 s e m) =
      .finite s (1#1 ++ m).toNat (e.toNat - 1075) positive := by
  have sign := ofBitVec_unpackSign s e m
  rw [unpack]
  simp only [unpackMantissa_packComponents, unpackExponent_packComponents, sign]
  rw [if_neg last, if_neg first]
  rfl

theorem unpack_subnormal (s : Sign) {m : BitVec 52} (positive : 0 < m.toNat) :
    unpack Format.binary64 (packComponents Format.binary64 s 0#11 m) =
      .finite s m.toNat (-1074) positive := by
  have nonzero : m ≠ 0#52 := by
    rintro rfl
    exact Nat.lt_irrefl 0 positive
  have sign := ofBitVec_unpackSign s 0#11 m
  have last : 0#11 ≠ -1#11 := by decide
  rw [unpack]
  simp only [unpackMantissa_packComponents, unpackExponent_packComponents, sign]
  rw [if_neg last, if_pos trivial, dif_neg nonzero]
  rfl

theorem pack_normal {s : Sign} {m : Nat} {e : Int} (positive : 0 < m)
    (normal : 2 ^ 52 ≤ m ∧ m < 2 ^ 53) (least : -1074 ≤ e) (fits : e ≤ 971) :
    pack Format.binary64 (.finite s m e positive) =
      packComponents Format.binary64 s (BitVec.ofNat 11 (e + 1075).toNat) (BitVec.ofNat 52 m) := by
  have bits : m.log2 = 52 := (Nat.log2_eq_iff positive.ne').2 normal
  have bias : e + Format.binary64.exponentBias + Format.binary64.mantissaBitsWithoutImplicit =
      e + 1075 := Int.add_assoc e 1023 52
  have small : ¬2 ^ Format.binary64.exponentBits ≤ (e + 1075).toNat + 1 := by
    change ¬2048 ≤ _
    omega
  rw [pack]
  simp only [bits, bias, if_neg small]
  rfl

theorem pack_subnormal {s : Sign} {m : Nat} (positive : 0 < m) (small : m < 2 ^ 52) :
    pack Format.binary64 (.finite s m (-1074) positive) =
      packComponents Format.binary64 s 0#11 (BitVec.ofNat 52 m) := by
  have bits : m.log2 < 52 := (Nat.log2_lt positive.ne').2 small
  have short : ¬m.log2 + 1 = Format.binary64.mantissaBits := by
    change ¬_ = 53
    omega
  rw [pack]
  simp only [if_neg short]
  rfl

theorem unpack_pack_normal {s : Sign} {m : Nat} {e : Int} (positive : 0 < m)
    (normal : 2 ^ 52 ≤ m ∧ m < 2 ^ 53) (least : -1074 ≤ e) (fits : e ≤ 971) :
    unpack Format.binary64 (pack Format.binary64 (.finite s m e positive)) =
      .finite s m e positive := by
  have field : (BitVec.ofNat 11 (e + 1075).toNat).toNat = (e + 1075).toNat := by
    rw [BitVec.toNat_ofNat]
    omega
  have first : BitVec.ofNat 11 (e + 1075).toNat ≠ 0#11 := by
    intro same
    rw [same] at field
    change 0 = _ at field
    omega
  have last : BitVec.ofNat 11 (e + 1075).toNat ≠ -1#11 := by
    intro same
    rw [same] at field
    change 2047 = _ at field
    omega
  have mantissa := toNat_implicit normal
  have exponent : ((e + 1075).toNat : Int) - 1075 = e := by omega
  rw [pack_normal positive normal least fits, unpack_normal s first last (by rwa [mantissa])]
  simp only [mantissa, field, exponent]

theorem unpack_pack_subnormal {s : Sign} {m : Nat} (positive : 0 < m) (small : m < 2 ^ 52) :
    unpack Format.binary64 (pack Format.binary64 (.finite s m (-1074) positive)) =
      .finite s m (-1074) positive := by
  have field : (BitVec.ofNat 52 m).toNat = m := by
    rw [BitVec.toNat_ofNat]
    omega
  rw [pack_subnormal positive small, unpack_subnormal s (by rwa [field])]
  simp only [field]

/-- What is canonical and not too large is kept as it is. -/
theorem unpack_pack {f : UnpackedFloat} (canonical : Canonical f) (below : magnitude f < top) :
    (Float.Model.pack f).unpack = f := by
  cases f with
  | infinity s => cases canonical
  | notANumber => cases canonical
  | zero s => cases s <;> rfl
  | finite s m e positive =>
    have fits := exponent_le_of_magnitude_lt canonical below
    obtain ⟨bits, least, shape⟩ := canonical
    by_cases normal : 2 ^ 52 ≤ m
    · exact unpack_pack_normal positive ⟨normal, bits⟩ least fits
    · obtain rfl := shape.resolve_left normal
      exact unpack_pack_subnormal positive (by omega)

/-! ## Results of operations -/

/-- Half a unit of the last bit below the first power of two that is too large. -/
def limit : ℚ := top - 2 ^ (970 : Int)

theorem limit_lt_top : limit < top := sub_lt_self _ (zpow_pos two_pos _)

/-- The largest double. -/
def largest : ℚ := top - 2 ^ (971 : Int)

theorem top_pos : 0 < top := zpow_pos two_pos _

/-- The last kept bit of a number below a power of two. -/
theorem lastBit_le {m : Nat} {e n : Int} (positive : 0 < m) (normal : -1021 ≤ n)
    (below : (m : ℚ) * 2 ^ e < 2 ^ n) : lastBit m e ≤ n - 53 := by
  have leading : (2 : ℚ) ^ (m.log2 + e) ≤ m * 2 ^ e := by
    rw [zpow_add₀ two_ne_zero, zpow_natCast]
    have floor : ((2 ^ m.log2 : Nat) : ℚ) ≤ m := by exact_mod_cast Nat.log2_self_le positive.ne'
    push_cast at floor
    exact mul_le_mul_of_nonneg_right floor (by positivity)
  have exponents : (m.log2 : Int) + e < n :=
    (zpow_lt_zpow_iff_right₀ one_lt_two).1 (leading.trans_lt below)
  rw [lastBit]
  omega

theorem magnitude_lt_of_rounded {f : UnpackedFloat} {m : Nat} {e : Int} (positive : 0 < m)
    (rounded : magnitude f ≤ m * 2 ^ e + 2 ^ (lastBit m e - 1))
    (below : (m : ℚ) * 2 ^ e < limit) : magnitude f < top := by
  have last := lastBit_le positive (by decide) (below.trans limit_lt_top)
  have half : (2 : ℚ) ^ (lastBit m e - 1) ≤ 2 ^ (970 : Int) :=
    zpow_le_zpow_right₀ one_le_two (by omega)
  calc
    magnitude f ≤ m * 2 ^ e + 2 ^ (lastBit m e - 1) := rounded
    _ < limit + 2 ^ (970 : Int) := add_lt_add_of_lt_of_le below half
    _ = top := sub_add_cancel _ _

theorem Canonical.isFinite {f : UnpackedFloat} (canonical : Canonical f) : f.isFinite = true := by
  cases f <;> first | rfl | cases canonical

theorem finite_unpack {b : BitVec 64} {s : Sign} {m : Nat} {e : Int} {positive : 0 < m}
    (read : unpack Format.binary64 b = .finite s m e positive) :
    (m < 2 ^ 53 ∧ -1074 ≤ e ∧ (2 ^ 52 ≤ m ∨ e = -1074)) ∧ e ≤ 971 := by
  have field : (@unpackExponent Format.binary64 b).toNat < 2 ^ 11 := BitVec.isLt _
  have fraction : (@unpackMantissa Format.binary64 b).toNat < 2 ^ 52 := BitVec.isLt _
  rw [unpack] at read
  split at read
  · split at read <;> cases read
  · rename_i last
    have notLast : (@unpackExponent Format.binary64 b).toNat ≠ 2047 := fun same =>
      last (BitVec.eq_of_toNat_eq same)
    split at read
    · rename_i first
      split at read
      · cases read
      · cases read
        rw [first]
        exact ⟨⟨by omega, by decide, .inr rfl⟩, by decide⟩
    · rename_i first
      have notFirst : (@unpackExponent Format.binary64 b).toNat ≠ 0 := fun same =>
        first (BitVec.eq_of_toNat_eq same)
      cases read
      have mantissa : (1#1 ++ @unpackMantissa Format.binary64 b).toNat =
          2 ^ 52 + (@unpackMantissa Format.binary64 b).toNat := by
        rw [BitVec.toNat_append, ← Nat.shiftLeft_add_eq_or_of_lt fraction]
        rfl
      have bias : (Format.binary64.exponentBias : Int) = 1023 := rfl
      have width : (Format.binary64.mantissaBitsWithoutImplicit : Int) = 52 := rfl
      rw [mantissa, bias, width]
      omega

theorem canonical_unpack {b : BitVec 64} (finite : (unpack Format.binary64 b).isFinite = true) :
    Canonical (unpack Format.binary64 b) ∧
      magnitude (unpack Format.binary64 b) ≤ largest := by
  cases read : unpack Format.binary64 b with
  | infinity s => rw [read] at finite; cases finite
  | notANumber => rw [read] at finite; cases finite
  | zero s => exact ⟨trivial, sub_nonneg.2 (zpow_le_zpow_right₀ one_le_two (by decide))⟩
  | finite s m e positive =>
    obtain ⟨canonical, fits⟩ := finite_unpack read
    refine ⟨canonical, ?_⟩
    have mantissa : (m : ℚ) ≤ 2 ^ (53 : Int) - 1 := by
      rw [le_sub_iff_add_le]
      exact_mod_cast canonical.1
    have exponent : (2 : ℚ) ^ e ≤ 2 ^ (971 : Int) := zpow_le_zpow_right₀ one_le_two fits
    calc
      (m : ℚ) * 2 ^ e ≤ m * 2 ^ (971 : Int) := mul_le_mul_of_nonneg_left exponent m.cast_nonneg
      _ ≤ (2 ^ (53 : Int) - 1) * 2 ^ (971 : Int) :=
        mul_le_mul_of_nonneg_right mantissa (zpow_nonneg zero_le_two _)
      _ = largest := by rw [sub_one_mul, ← zpow_add₀ two_ne_zero]; rfl

/-- The distance of a double from zero. -/
def size (x : Float) : ℚ := magnitude x.toModel.unpack

theorem isFinite_ofModel_pack {f : UnpackedFloat} (canonical : Canonical f)
    (below : magnitude f < top) :
    (Float.ofModel (.pack f)).isFinite = true ∧ size (.ofModel (.pack f)) = magnitude f := by
  have kept := unpack_pack canonical below
  rw [Float.isFinite, size, Float.Model.isFinite, kept]
  exact ⟨canonical.isFinite, rfl⟩

/-! ### Sums -/

theorem decreaseExponent_value {m : Nat} {e least : Int} (below : least ≤ e) :
    ((decreaseExponent m e least).1 : ℚ) * 2 ^ least = m * 2 ^ e := by
  have value := shiftLeft_value m (e - least).toNat e
  have exponent : e - ((e - least).toNat : Int) = least := by omega
  rwa [exponent] at value

theorem natAbs_apply_add_le (s t : Sign) (m n : Nat) :
    (s.apply m + t.apply n).natAbs ≤ m + n := by
  cases s <;> cases t <;> simp only [Sign.apply] <;> omega

theorem add_spec {f g : UnpackedFloat} (first : Canonical f) (second : Canonical g)
    (below : magnitude f + magnitude g < limit) :
    Canonical (add Format.binary64 f g) ∧ magnitude (add Format.binary64 f g) < top := by
  match f, g with
  | .zero .positive, .zero .positive => exact ⟨trivial, top_pos⟩
  | .zero .positive, .zero .negative => exact ⟨trivial, top_pos⟩
  | .zero .negative, .zero .positive => exact ⟨trivial, top_pos⟩
  | .zero .negative, .zero .negative => exact ⟨trivial, top_pos⟩
  | .zero s, .finite .. =>
    rw [show magnitude (.zero s) = 0 from rfl, zero_add] at below
    exact ⟨second, below.trans limit_lt_top⟩
  | .finite .., .zero s =>
    rw [show magnitude (.zero s) = 0 from rfl, add_zero] at below
    exact ⟨first, below.trans limit_lt_top⟩
  | .finite s m e _, .finite t n k _ =>
    have left : ((decreaseExponent m e (min e k)).1 : ℚ) * 2 ^ min e k = m * 2 ^ e :=
      decreaseExponent_value (min_le_left e k)
    have right : ((decreaseExponent n k (min e k)).1 : ℚ) * 2 ^ min e k = n * 2 ^ k :=
      decreaseExponent_value (min_le_right e k)
    simp only [add]
    generalize (decreaseExponent m e (min e k)).1 = a at left ⊢
    generalize (decreaseExponent n k (min e k)).1 = b at right ⊢
    obtain ⟨canonical, rounded⟩ := normalize_spec (s.apply a + t.apply b) (min e k) .positive
    refine ⟨canonical, ?_⟩
    have sum : ((s.apply a + t.apply b).natAbs : ℚ) ≤ a + b := by
      exact_mod_cast natAbs_apply_add_le s t a b
    have exact_lt : ((s.apply a + t.apply b).natAbs : ℚ) * 2 ^ min e k < limit := by
      have scaled := mul_le_mul_of_nonneg_right sum (zpow_nonneg zero_le_two (min e k))
      rw [add_mul, left, right] at scaled
      exact scaled.trans_lt below
    rcases Nat.eq_zero_or_pos (s.apply a + t.apply b).natAbs with none | positive
    · rw [Int.natAbs_eq_zero.1 none]
      exact top_pos
    · exact magnitude_lt_of_rounded positive rounded exact_lt

theorem isFinite_add {x y : Float} (first : x.isFinite = true) (second : y.isFinite = true)
    (below : size x + size y < limit) : (x + y).isFinite = true := by
  obtain ⟨canonical, small⟩ :=
    add_spec (canonical_unpack first).1 (canonical_unpack second).1 below
  exact (isFinite_ofModel_pack canonical small).1

/-! ### Products -/

theorem le_lastBit_of_le {m : Nat} {e : Int} (long : 2 ^ 52 ≤ m) : e ≤ lastBit m e := by
  have bits : 52 ≤ m.log2 := (Nat.le_log2 (by omega)).2 long
  rw [lastBit]
  omega

theorem mul_spec {f g : UnpackedFloat} (first : Canonical f) (second : Canonical g)
    (below : magnitude f * magnitude g < limit) :
    Canonical (mul Format.binary64 f g) ∧ magnitude (mul Format.binary64 f g) < top := by
  match f, g with
  | .zero _, .zero _ => exact ⟨trivial, top_pos⟩
  | .zero _, .finite .. => exact ⟨trivial, top_pos⟩
  | .finite .., .zero _ => exact ⟨trivial, top_pos⟩
  | .finite s m e hm, .finite t n k hn =>
    have positive : 0 < m * n := Nat.mul_pos hm hn
    have value : ((m * n : Nat) : ℚ) * 2 ^ (e + k) < limit := by
      rw [zpow_add₀ two_ne_zero, Nat.cast_mul, mul_mul_mul_comm]
      exact below
    have kept : e + k ≤ lastBit (m * n) (e + k) := by
      obtain ⟨-, -, long | least⟩ := first
      · exact le_lastBit_of_le (long.trans (Nat.le_mul_of_pos_right m hn))
      · obtain ⟨-, -, long | least'⟩ := second
        · exact le_lastBit_of_le (long.trans (Nat.le_mul_of_pos_left n hm))
        · rw [lastBit]
          omega
    exact ⟨canonical_roundWithAccuracy _ positive kept,
      magnitude_lt_of_rounded positive (magnitude_roundWithAccuracy_le _ kept) value⟩

theorem isFinite_mul {x y : Float} (first : x.isFinite = true) (second : y.isFinite = true)
    (below : size x * size y < limit) : (x * y).isFinite = true := by
  obtain ⟨canonical, small⟩ :=
    mul_spec (canonical_unpack first).1 (canonical_unpack second).1 below
  exact (isFinite_ofModel_pack canonical small).1

/-! ### Negatives and words -/

theorem size_le_largest {x : Float} (finite : x.isFinite = true) : size x ≤ largest :=
  (canonical_unpack finite).2

theorem largest_lt_top : largest < top := sub_lt_self _ (zpow_pos two_pos _)

theorem neg_spec {f : UnpackedFloat} (canonical : Canonical f) :
    Canonical f.neg ∧ magnitude f.neg = magnitude f := by
  cases f with
  | infinity s => cases canonical
  | notANumber => cases canonical
  | zero s => exact ⟨trivial, rfl⟩
  | finite s m e positive => exact ⟨canonical, rfl⟩

theorem isFinite_neg {x : Float} (finite : x.isFinite = true) :
    (-x).isFinite = true ∧ size (-x) = size x := by
  obtain ⟨canonical, bound⟩ := canonical_unpack finite
  obtain ⟨negated, same⟩ := neg_spec canonical
  obtain ⟨isFinite, value⟩ :=
    isFinite_ofModel_pack negated (same.trans_lt (bound.trans_lt largest_lt_top))
  exact ⟨isFinite, value.trans same⟩

/-- A whole number is rounded by at most half a unit of its last bit. -/
theorem magnitude_normalize_natCast_le {n bits : Nat} (small : (n : ℚ) < 2 ^ (bits : Int)) :
    magnitude (UnpackedFloat.normalize Format.binary64 n 0 .positive) ≤
      n + 2 ^ ((bits : Int) - 54) := by
  rcases Nat.eq_zero_or_pos n with rfl | positive
  · exact add_nonneg (le_refl _) (zpow_nonneg zero_le_two _)
  · have value : (n : ℚ) * 2 ^ (0 : Int) = n := by rw [zpow_zero, mul_one]
    have last := lastBit_le positive (by omega) (value.trans_lt small)
    have half : (2 : ℚ) ^ (lastBit n 0 - 1) ≤ 2 ^ ((bits : Int) - 54) :=
      zpow_le_zpow_right₀ one_le_two (by omega)
    have bound := (normalize_spec n 0 .positive).2
    rw [Int.natAbs_natCast, value] at bound
    exact bound.trans (add_le_add_right half _)

theorem toFloat_spec {n : UInt64} {bits : Nat} (small : n.toNat < 2 ^ bits) (fits : bits ≤ 1023) :
    n.toFloat.isFinite = true ∧ size n.toFloat ≤ n.toNat + 2 ^ ((bits : Int) - 54) := by
  have below : (n.toNat : ℚ) < 2 ^ (bits : Int) := by
    rw [zpow_natCast]
    exact_mod_cast small
  have canonical := (normalize_spec n.toNat 0 .positive).1
  have rounded := magnitude_normalize_natCast_le below
  have half : (2 : ℚ) ^ ((bits : Int) - 54) ≤ 2 ^ (bits : Int) :=
    zpow_le_zpow_right₀ one_le_two (by omega)
  have double : (2 : ℚ) ^ (bits : Int) + 2 ^ (bits : Int) ≤ top := by
    rw [← two_mul, mul_comm, ← zpow_add_one₀ two_ne_zero]
    exact zpow_le_zpow_right₀ one_le_two (by omega)
  obtain ⟨isFinite, same⟩ := isFinite_ofModel_pack canonical
    (rounded.trans_lt ((add_lt_add_of_lt_of_le below half).trans_le double))
  exact ⟨isFinite, same.trans_le rounded⟩

theorem wordValue_spec (n : Int32) :
    (wordValue n).isFinite = true ∧ size (wordValue n) ≤ 2 ^ (33 : Int) := by
  have lower := n.le_toInt
  have upper := n.toInt_lt
  have value : (UInt64.ofNat n.toInt.natAbs).toNat = n.toInt.natAbs := by
    rw [UInt64.toNat_ofNat_of_lt']
    exact Nat.lt_of_le_of_lt (by omega : n.toInt.natAbs ≤ 2 ^ 31) (by decide)
  have small : (UInt64.ofNat n.toInt.natAbs).toNat < 2 ^ 32 := by omega
  obtain ⟨finite, bound⟩ := toFloat_spec small (by decide)
  have room : size (UInt64.ofNat n.toInt.natAbs).toFloat ≤ 2 ^ (33 : Int) := by
    have whole : ((UInt64.ofNat n.toInt.natAbs).toNat : ℚ) ≤ 2 ^ 32 := by exact_mod_cast small.le
    refine bound.trans ((add_le_add_left whole _).trans ?_)
    norm_num
  rw [wordValue]
  split
  · exact ⟨(isFinite_neg finite).1, (isFinite_neg finite).2.trans_le room⟩
  · exact ⟨finite, room⟩

/-- Adding a word to a double does not make it infinite. -/
theorem isFinite_add_wordValue {x : Float} (finite : x.isFinite = true) (n : Int32) :
    (x + wordValue n).isFinite = true := by
  obtain ⟨word, bound⟩ := wordValue_spec n
  refine isFinite_add finite word ?_
  have gap : (2 : ℚ) ^ (33 : Int) < 2 ^ (970 : Int) := zpow_lt_zpow_right₀ one_lt_two (by decide)
  have next : (2 : ℚ) ^ (971 : Int) = 2 ^ (970 : Int) + 2 ^ (970 : Int) := by
    rw [← two_mul, mul_comm, ← zpow_add_one₀ two_ne_zero]
    rfl
  calc
    size x + size (wordValue n) ≤ largest + 2 ^ (33 : Int) :=
      add_le_add (size_le_largest finite) bound
    _ < largest + 2 ^ (970 : Int) := add_lt_add_right gap _
    _ = limit := by rw [largest, limit, next]; ring

end BlockSchematic.Doubles
