import BlockSchematic.Proofs.FiniteDoubles
import BlockSchematic.Proofs.JsonDecimals
import BlockSchematic.Proofs.JsonRefusals
import BlockSchematic.Proofs.ShortestDigits

/-!
# Which doubles are read back

A double that is no number is written as null, which is refused. A finite one is written as digits
and a power of ten. Reading divides by the power or multiplies by it, and the product stays finite:
for the largest double this is computed, and the decimals of all others stay well below the least
number that rounds to infinity.
-/

namespace BlockSchematic

namespace Decimal

open Float.Model (Format UnpackedFloat)
open Float.Model.UnpackedFloat

theorem cast_twoTo (n : Nat) : (twoTo n : ℚ) = 2 ^ n := Nat.cast_pow 2 n

/-! ## The bits of a finite double -/

theorem toNat_unpackExponent (b : BitVec 64) :
    (@unpackExponent Format.binary64 b).toNat = b.toNat / twoTo 52 % twoTo 11 := by
  rw [unpackExponent, BitVec.toNat_cast, BitVec.extractLsb_toNat, Nat.shiftRight_eq_div_pow]
  rfl

theorem isFinite_unpack_iff (b : BitVec 64) :
    (unpack Format.binary64 b).isFinite = true ↔ b.toNat / twoTo 52 % twoTo 11 ≠ 2047 := by
  rw [← toNat_unpackExponent, unpack]
  split
  · rename_i last
    refine iff_of_false ?_ (not_not.2 (by rw [last]; rfl))
    split <;> exact Bool.false_ne_true
  · rename_i other
    refine iff_of_true ?_ fun same => other (BitVec.eq_of_toNat_eq same)
    split
    · split <;> rfl
    · rfl

theorem isFinite_iff (x : Float) :
    x.isFinite = true ↔ x.toBits.toNat / twoTo 52 % twoTo 11 ≠ 2047 :=
  isFinite_unpack_iff x.toBits.toBitVec

theorem exists_ofFloat {x : Float} (finite : x.isFinite = true) :
    ∃ negative m e, Exact.ofFloat x = .finite negative m e ∧ (m = 0 ∨ IsDouble m e) := by
  have field := (isFinite_iff x).1 finite
  have small : x.toBits.toNat / twoTo 52 % twoTo 11 < 2048 := Nat.mod_lt _ (by decide)
  have fraction : x.toBits.toNat % twoTo 52 < 2 ^ 52 := Nat.mod_lt _ (by decide)
  have unit : twoTo 52 = 2 ^ 52 := rfl
  simp only [Exact.ofFloat, Exact.ofBits, if_neg field]
  split
  · refine ⟨_, _, _, rfl, (Nat.eq_zero_or_pos _).imp_right fun positive => ?_⟩
    exact ⟨positive, by omega, Int.le_refl _, by decide, .inr rfl⟩
  · have least : leastExponent = -1074 := rfl
    exact ⟨_, _, _, rfl, .inr ⟨by omega, by omega, by omega, by omega, .inl (by omega)⟩⟩

theorem chars_of_not_finite {x : Float} (infinite : ¬x.isFinite = true) :
    documentLayout.chars x = ['n', 'u', 'l', 'l'] := by
  have field := not_not.1 (mt (isFinite_iff x).2 infinite)
  rw [Layout.chars, Exact.ofFloat, Exact.ofBits]
  simp only [if_pos field]
  split
  · cases decide (twoTo 63 ≤ x.toBits.toNat) <;> rfl
  · rfl

end Decimal

namespace Json

open Decimal Doubles
open Float.Model (UnpackedFloat)

/-! ## Digits times a power of ten -/

theorem isInf_eq_false {x : Float} (finite : x.isFinite = true) : x.isInf = false := by
  change x.toModel.unpack.isFinite = true at finite
  change x.toModel.unpack.isInf = false
  cases unpacked : x.toModel.unpack with
  | infinity s =>
    rw [unpacked] at finite
    cases finite
  | notANumber => rfl
  | zero s => rfl
  | finite s m e positive => rfl

/-- A number up to `d`, rounded to a double, stays a double when it is multiplied. -/
def productFits (d : Nat) (factor : UnpackedFloat) : Bool :=
  match factor with
  | .finite _ m e _ =>
    decide (-52 ≤ e) &&
      decide ((d * twoTo 54 + twoTo (d.log2 + 1)) * (m * twoTo (e + 52).toNat) <
        (twoTo 1024 - twoTo 970) * twoTo 106)
  | _ => false

theorem limit_eq : limit = (twoTo 1024 - twoTo 970 : Nat) := by
  rw [Nat.cast_sub (twoTo_le (by decide)), cast_twoTo, cast_twoTo, ← zpow_natCast, ← zpow_natCast]
  rfl

theorem size_toFloat_le {n : UInt64} {d : Nat} (most : n.toNat ≤ d) (short : d ≤ 10 ^ 17) :
    n.toFloat.isFinite = true ∧
      size n.toFloat * 2 ^ 54 ≤ (d * twoTo 54 + twoTo (d.log2 + 1) : Nat) := by
  have bits : d.log2 + 1 ≤ 57 := by
    rcases Nat.eq_zero_or_pos d with rfl | positive
    · decide
    · have large : d < 2 ^ 57 := Nat.lt_of_le_of_lt short (by decide)
      exact (Nat.log2_lt positive.ne').2 large
  have digits : n.toNat < 2 ^ (d.log2 + 1) := Nat.lt_of_le_of_lt most Nat.lt_log2_self
  obtain ⟨finite, rounded⟩ := toFloat_spec digits (Nat.le_trans bits (by decide))
  have unit : (2 : ℚ) ^ (((d.log2 + 1 : Nat) : Int) - 54) * 2 ^ 54 = 2 ^ (d.log2 + 1) := by
    rw [← zpow_natCast 2 54, ← zpow_add₀ two_ne_zero, Nat.cast_ofNat, sub_add_cancel, zpow_natCast]
  have first : (n.toNat : ℚ) ≤ d := by exact_mod_cast most
  refine ⟨finite, ?_⟩
  calc
    size n.toFloat * 2 ^ 54 ≤ (d + 2 ^ (((d.log2 + 1 : Nat) : Int) - 54)) * 2 ^ 54 :=
      mul_le_mul_of_nonneg_right (rounded.trans (add_le_add_left first _)) (by positivity)
    _ = (d * twoTo 54 + twoTo (d.log2 + 1) : Nat) := by
      rw [add_mul, unit, Nat.cast_add, Nat.cast_mul, cast_twoTo, cast_twoTo]

theorem isFinite_mul_of_productFits {n : UInt64} {d : Nat} {y : Float} (most : n.toNat ≤ d)
    (short : d ≤ 10 ^ 17) (fits : productFits d y.toModel.unpack = true) :
    (n.toFloat * y).isFinite = true := by
  obtain ⟨whole, front⟩ := size_toFloat_le most short
  cases unpacked : y.toModel.unpack with
  | infinity s => rw [unpacked] at fits; cases fits
  | notANumber => rw [unpacked] at fits; cases fits
  | zero s => rw [unpacked] at fits; cases fits
  | finite s m e positive =>
    rw [unpacked] at fits
    simp only [productFits, Bool.and_eq_true, decide_eq_true_eq] at fits
    obtain ⟨least, product⟩ := fits
    have finite : y.isFinite = true := by
      rw [Float.isFinite, Float.Model.isFinite, unpacked]
      rfl
    have factor : size y * 2 ^ 52 = (m * twoTo (e + 52).toNat : Nat) := by
      have shifted : ((e + 52).toNat : Int) = e + (52 : Nat) := by omega
      rw [Nat.cast_mul, cast_twoTo, ← zpow_natCast 2 (e + 52).toNat, shifted,
        zpow_add₀ two_ne_zero, zpow_natCast, ← mul_assoc, size, unpacked, magnitude]
    have below : size n.toFloat * 2 ^ 54 * (size y * 2 ^ 52) < limit * 2 ^ 106 := by
      rw [factor, limit_eq, ← cast_twoTo 106]
      refine (mul_le_mul_of_nonneg_right front (Nat.cast_nonneg _)).trans_lt ?_
      exact_mod_cast product
    have units : size n.toFloat * 2 ^ 54 * (size y * 2 ^ 52) =
        size n.toFloat * size y * 2 ^ 106 := by ring
    rw [units] at below
    exact isFinite_mul whole finite (lt_of_mul_lt_mul_right below (by positivity))

/-- No double but the largest is written with digits and a power of ten above this. -/
def reach : Nat := twoTo 1024 - 3 * twoTo 970

/-- The most digits that are multiplied by a power of ten. -/
def mostDigits (k : Nat) : Nat := min (reach / tenTo k) (10 ^ 17)

theorem productFits_mostDigits :
    ∀ k < 309, productFits (mostDigits k) (powerOfTen k).toModel.unpack = true := by
  decide +kernel

theorem isFinite_product {n k : Nat} (few : n < 10 ^ 17) (within : n * tenTo k ≤ reach)
    (small : k < 309) : ((UInt64.ofNat n).toFloat * powerOfTen k).isFinite = true := by
  have value : (UInt64.ofNat n).toNat = n := by
    rw [UInt64.toNat_ofNat_of_lt']
    exact Nat.lt_trans few (by decide)
  have most : n ≤ mostDigits k :=
    Nat.le_min.2 ⟨(Nat.le_div_iff_mul_le (tenTo_pos k)).2 within, few.le⟩
  exact isFinite_mul_of_productFits (value.trans_le most) (Nat.min_le_right ..)
    (productFits_mostDigits k small)

theorem scales_of_isFinite {n k : Nat} (small : k < 309)
    (finite : ((UInt64.ofNat n).toFloat * powerOfTen k).isFinite = true) : Scales n k := by
  refine ⟨(UInt64.ofNat n).toFloat * powerOfTen k, ?_⟩
  rw [scaleByTens, if_neg (by omega), if_pos (Int.natCast_nonneg k), Int.toNat_natCast]
  simp only [isInf_eq_false finite, Bool.false_eq_true, if_false]

section Shortest

variable {m n : Nat} {e : Int} (double : IsDouble m e)
include double

theorem high_le_reach (notLargest : ¬(m = 2 ^ 53 - 1 ∧ e = 971)) :
    (4 * m + 2) * twoTo (e - 2).toNat ≤ reach := by
  have bits := double.bits
  have most := double.most
  rcases Int.lt_or_le 970 e with last | before
  · have exponent : e = 971 := by omega
    have mantissa : 4 * m + 2 ≤ 2 ^ 55 - 6 := by omega
    subst exponent
    exact (Nat.mul_le_mul_right _ mantissa).trans (by decide +kernel)
  · have mantissa : 4 * m + 2 ≤ 2 ^ 55 := by omega
    have exponent : twoTo (e - 2).toNat ≤ twoTo 968 := twoTo_le (by omega)
    exact (Nat.mul_le_mul mantissa exponent).trans (by decide +kernel)

theorem scales_of_fewDigits {k : Nat} (few : FewDigits m e n k)
    (notLargest : ¬(m = 2 ^ 53 - 1 ∧ e = 971)) : Scales n k := by
  have within : n * tenTo k ≤ reach := by
    have decimal := few.within
    have noFraction : (-(k : Int)).toNat = 0 := by omega
    rw [Scale.of, Int.toNat_natCast, noFraction] at decimal
    calc
      n * tenTo k ≤ n * (tenTo k * twoTo (2 - e).toNat) :=
        Nat.mul_le_mul_left _ (Nat.le_mul_of_pos_right _ (twoTo_pos _))
      _ ≤ (4 * m + 2) * (twoTo (e - 2).toNat * tenTo 0) := decimal
      _ = (4 * m + 2) * twoTo (e - 2).toNat := 
        congrArg ((4 * m + 2) * ·) (Nat.mul_one (twoTo (e - 2).toNat))
      _ ≤ reach := high_le_reach double notLargest
  have small : k < 309 := by
    refine Nat.lt_of_not_le fun large => ?_
    have power : tenTo 309 ≤ tenTo k := tenTo_le large
    have digits : tenTo k ≤ n * tenTo k := Nat.le_mul_of_pos_left _ few.positive
    have beyond : reach < tenTo 309 := by decide +kernel
    omega
  exact scales_of_isFinite small (isFinite_product few.few within small)

theorem scales_shortest (whole : 0 ≤ (shortest .even m e).2) :
    Scales (shortest .even m e).1 (shortest .even m e).2 := by
  have few := double.fewDigits_shortest .even
  by_cases largest : m = 2 ^ 53 - 1 ∧ e = 971
  · obtain ⟨rfl, rfl⟩ := largest
    have decimal : shortest .even (2 ^ 53 - 1) 971 = (17976931348623157, ((292 : Nat) : Int)) := by
      decide +kernel
    rw [decimal]
    exact scales_of_isFinite (by decide) (by decide +kernel)
  · obtain ⟨k, same⟩ := Int.eq_ofNat_of_zero_le whole
    rw [same] at few ⊢
    exact scales_of_fewDigits double few largest

theorem readsDouble_shortest :
    ReadsDouble (documentLayout.decimalChars (Text.natChars (shortest .even m e).1)
      (shortest .even m e).2) :=
  have few := double.fewDigits_shortest .even
  readsDouble_decimalChars few.positive few.few few.inReach (scales_shortest double)

end Shortest

/-! ## Reading doubles back -/

theorem ReadsDouble.starts {cs : List Char} (reads : ReadsDouble cs) :
    ∃ c rest, cs = c :: rest ∧ c.isDigit = true := by
  obtain ⟨y, read⟩ := reads false
  cases cs with
  | nil => cases read
  | cons c rest =>
    refine ⟨c, rest, rfl, ?_⟩
    rw [readUnsigned] at read
    split at read
    · rename_i zero
      rw [zero]
      rfl
    · split at read
      · assumption
      · cases read

theorem readsDouble_zero : ReadsDouble ['0', '.', '0'] :=
  readsDouble_of_scales (scales_of_neg (by decide : (-1 : Int) < 0) 0) fun _ => rfl

theorem readNumber_signed {cs : List Char} (reads : ReadsDouble cs) (negative : Bool) :
    ∃ y c rest, (if negative then '-' :: cs else cs) = c :: rest ∧ isSpace c = false ∧
      startsNumber c = true ∧ readNumber (c :: rest) = .ok (.double y, []) := by
  cases negative with
  | true =>
    obtain ⟨y, read⟩ := reads true
    exact ⟨y, '-', cs, rfl, rfl, rfl, read⟩
  | false =>
    obtain ⟨y, read⟩ := reads false
    obtain ⟨c, rest, rfl, digit⟩ := reads.starts
    refine ⟨y, c, rest, rfl, isSpace_eq_false_of_isDigit digit, ?_, ?_⟩
    · rw [startsNumber, digit, Bool.or_true]
    · rw [readNumber.eq_2]
      · exact read
      · rintro _ minus
        cases minus
        cases digit

theorem exists_readsDouble {x : Float} (finite : x.isFinite = true) :
    ∃ (negative : Bool) (cs : List Char),
      doubleChars x = (if negative then '-' :: cs else cs) ∧ ReadsDouble cs := by
  obtain ⟨negative, m, e, parts, zero | double⟩ := exists_ofFloat finite
  · subst zero
    refine ⟨negative, _, ?_, readsDouble_zero⟩
    rw [doubleChars, Layout.chars, parts]
    rfl
  · refine ⟨negative, _, ?_, readsDouble_shortest double⟩
    rw [doubleChars, Layout.chars, parts]
    simp only [Layout.exactChars, if_neg (Nat.ne_of_gt double.positive)]
    rfl

/-- A double is read back exactly if it is finite: what is not is written as no number. -/
theorem decides_double (x : Float) : Decides .double (.double x) (x.isFinite = true) where
  decodes finite := by
    obtain ⟨negative, cs, written, reads⟩ := exists_readsDouble finite
    obtain ⟨y, c, rest, signed, solid, number, read⟩ := readNumber_signed reads negative
    refine ⟨y, decodes_number fun _ => ?_⟩
    rw [prettyChars, written, signed, Decoder.number, skipSpaces_cons solid]
    simp only [number, if_true, read]
  refuses infinite := by
    refine ⟨number_skipSpaces _, fun _ rest _ => ⟨wrongShape ('n' :: ['u', 'l', 'l'] ++ rest), ?_⟩⟩
    rw [prettyChars, doubleChars, chars_of_not_finite infinite]
    rfl

end Json

end BlockSchematic
