import BlockSchematic.Decimal.Reading
import BlockSchematic.Proofs.WrittenDoubles

/-!
# Decimals that round to infinity

The double nearest to a decimal is finite exactly if the decimal stays half a unit of the last bit
below the first power of two that is too large.
-/

namespace BlockSchematic.Decimal

open Doubles
open Float.Model (Format UnpackedFloat)
open Float.Model.UnpackedFloat

/-! ## Comparing in units of a power of two -/

theorem pow_toNat_mul_zpow {b : ℚ} (nonzero : b ≠ 0) (e : Int) :
    b ^ (-e).toNat * b ^ e = b ^ e.toNat := by
  rcases Int.lt_or_le e 0 with negative | positive
  · have same : e = -((-e).toNat : Int) := by omega
    have none : e.toNat = 0 := by omega
    conv_lhs => rw [same, neg_neg, Int.toNat_natCast]
    rw [none, zpow_neg, zpow_natCast, pow_zero, mul_inv_cancel₀ (pow_ne_zero _ nonzero)]
  · have same : e = (e.toNat : Int) := by omega
    have none : (-e).toNat = 0 := by omega
    conv_lhs => rw [none, same]
    rw [pow_zero, one_mul, zpow_natCast]

variable {num den : Nat}

/-- Both sides are whole multiples of a common unit. -/
theorem units_lt_iff (num den c : Nat) (e : Int) :
    num * twoTo (-e).toNat < c * (den * twoTo e.toNat) ↔ (num : ℚ) < c * 2 ^ e * den := by
  have unit : (0 : ℚ) < twoTo (-e).toNat := by exact_mod_cast twoTo_pos _
  have same : ((c * (den * twoTo e.toNat) : Nat) : ℚ) = c * 2 ^ e * den * twoTo (-e).toNat := by
    rw [Nat.cast_mul, Nat.cast_mul, cast_twoTo, cast_twoTo,
      ← pow_toNat_mul_zpow two_ne_zero e]
    ring
  rw [← mul_lt_mul_iff_left₀ unit, ← same]
  exact_mod_cast Iff.rfl

/-! ## The exponent of the mantissa -/

theorem lt_leading (num : Nat) (hd : 0 < den) :
    (num : ℚ) < 2 ^ 53 * 2 ^ ((num.log2 : Int) - den.log2 - 52) * den := by
  have above : (num : ℚ) < 2 ^ (num.log2 + 1) := by exact_mod_cast Nat.lt_log2_self
  have below : (2 : ℚ) ^ den.log2 ≤ den := by exact_mod_cast Nat.log2_self_le hd.ne'
  have exponents : (2 : ℚ) ^ (num.log2 + 1) =
      2 ^ 53 * 2 ^ ((num.log2 : Int) - den.log2 - 52) * 2 ^ den.log2 := by
    rw [← zpow_natCast, ← zpow_natCast, ← zpow_natCast, ← zpow_add₀ two_ne_zero,
      ← zpow_add₀ two_ne_zero]
    congr 1
    push_cast
    omega
  exact above.trans_le (exponents.trans_le (mul_le_mul_of_nonneg_left below (by positivity)))

theorem leading_le (den : Nat) (hn : 0 < num) :
    2 ^ 52 * 2 ^ ((num.log2 : Int) - den.log2 - 52 - 1) * den ≤ (num : ℚ) := by
  have above : (den : ℚ) ≤ 2 ^ (den.log2 + 1) := by exact_mod_cast Nat.lt_log2_self.le
  have below : (2 : ℚ) ^ num.log2 ≤ num := by exact_mod_cast Nat.log2_self_le hn.ne'
  have exponents : 2 ^ 52 * 2 ^ ((num.log2 : Int) - den.log2 - 52 - 1) * 2 ^ (den.log2 + 1) =
      (2 : ℚ) ^ num.log2 := by
    rw [← zpow_natCast, ← zpow_natCast, ← zpow_natCast, ← zpow_add₀ two_ne_zero,
      ← zpow_add₀ two_ne_zero]
    congr 1
    push_cast
    omega
  exact (mul_le_mul_of_nonneg_left above (by positivity)).trans (exponents.trans_le below)

/-- The mantissa has 53 bits, or fewer at the least exponent. -/
theorem mantissaExponent_spec (hn : 0 < num) (hd : 0 < den) :
    (num : ℚ) < 2 ^ 53 * 2 ^ mantissaExponent num den * den ∧
      (2 ^ 52 * 2 ^ mantissaExponent num den * den ≤ (num : ℚ) ∨
        mantissaExponent num den = leastExponent) := by
  have upper := lt_leading num hd
  have lower := leading_le den hn
  have grow {e k : Int} (order : e ≤ k) : (2 : ℚ) ^ 53 * 2 ^ e * den ≤ 2 ^ 53 * 2 ^ k * den :=
    mul_le_mul_of_nonneg_right (mul_le_mul_of_nonneg_left
      (zpow_le_zpow_right₀ one_le_two order) (by positivity)) (Nat.cast_nonneg _)
  rw [mantissaExponent]
  generalize (num.log2 : Int) - den.log2 - 52 = e at upper lower
  have settled (k : Int) (above : (num : ℚ) < 2 ^ 53 * 2 ^ k * den)
      (below : 2 ^ 52 * 2 ^ k * den ≤ (num : ℚ)) :
      (num : ℚ) < 2 ^ 53 * 2 ^ max k leastExponent * den ∧
        (2 ^ 52 * 2 ^ max k leastExponent * den ≤ (num : ℚ) ∨
          max k leastExponent = leastExponent) := by
    refine ⟨above.trans_le (grow (le_max_left _ _)), ?_⟩
    rcases le_total k leastExponent with least | more
    · exact .inr (max_eq_right least)
    · rw [max_eq_left more]
      exact .inl below
  have test := units_lt_iff num den (twoTo 52) e
  rw [cast_twoTo] at test
  split
  · rename_i short
    refine settled (e - 1) ?_ lower
    have half : (2 : ℚ) ^ 52 * 2 ^ e * den = 2 ^ 53 * 2 ^ (e - 1) * den := by
      rw [zpow_sub_one₀ two_ne_zero]
      ring
    exact (test.1 short).trans_eq half
  · rename_i long
    exact settled e upper (not_lt.1 (mt test.2 long))

/-! ## Rounding up to infinity -/

theorem roundHalfEven_carry_iff {n d : Nat} (hd : 0 < d) (below : n < twoTo 53 * d) :
    roundHalfEven n d < twoTo 53 ↔ 2 * n < (twoTo 54 - 1) * d := by
  have floor : n / d < twoTo 53 := (Nat.div_lt_iff_lt_mul hd).2 below
  have parts : 2 * n = 2 * (n / d) * d + 2 * (n % d) := by
    conv_lhs => rw [← Nat.div_add_mod n d]
    ring
  have rest : n % d < d := Nat.mod_lt _ hd
  rcases Nat.lt_or_ge (n / d) (twoTo 53 - 1) with small | last
  · refine iff_of_true (Nat.lt_of_le_of_lt (roundHalfEven_le n d) (Nat.add_lt_of_lt_sub small)) ?_
    calc
      2 * n < (2 * (n / d) + 2) * d := by
        rw [parts, Nat.add_mul]
        exact Nat.add_lt_add_left (by omega) _
      _ ≤ (twoTo 54 - 1) * d := Nat.mul_le_mul_right d (by
        have double : twoTo 54 = 2 * twoTo 53 := rfl
        omega)
  · have full : n / d = twoTo 53 - 1 := by omega
    have odd : (twoTo 53 - 1) % 2 = 1 := rfl
    have double : 2 * (twoTo 53 - 1) + 1 = twoTo 54 - 1 := rfl
    rw [parts, full, ← double, Nat.add_mul, Nat.one_mul, Nat.add_lt_add_iff_left, roundHalfEven,
      full, odd]
    split <;> omega

theorem limit_eq_mul : limit = (2 ^ 54 - 1) * 2 ^ (970 : Int) := by
  have first : top = 2 ^ 54 * 2 ^ (970 : Int) := by
    rw [top, ← zpow_natCast, ← zpow_add₀ two_ne_zero]
    rfl
  rw [limit, first, sub_one_mul]

theorem infinityBits_eq : infinityBits = 2047 * twoTo 52 := rfl

/-- At the last exponent but one, the nearest whole mantissa may have a bit too many. -/
theorem roundedUnits_carry_iff (hd : 0 < den) (below : (num : ℚ) < 2 ^ 53 * 2 ^ (971 : Int) * den) :
    roundedUnits num den 971 < twoTo 53 ↔ (num : ℚ) < limit * den := by
  have scale := (units_lt_iff num den (twoTo 53) 971).2
    (by rwa [cast_twoTo])
  rw [roundedUnits, roundHalfEven_carry_iff (Nat.mul_pos hd (twoTo_pos _)) scale]
  have double : twoTo (971 : Int).toNat = 2 * twoTo 970 := twoTo_succ 970
  have none : num * twoTo (-971 : Int).toNat = num := Nat.mul_one num
  have halved : (twoTo 54 - 1) * (den * (2 * twoTo 970)) =
      2 * ((twoTo 54 - 1) * twoTo 970 * den) := by ring
  rw [double, none, halved, Nat.mul_lt_mul_left two_pos, limit_eq_mul]
  have value : (((twoTo 54 - 1) * twoTo 970 * den : Nat) : ℚ) =
      (2 ^ 54 - 1) * 2 ^ (970 : Int) * den := by
    rw [Nat.cast_mul, Nat.cast_mul, Nat.cast_pred (twoTo_pos 54), cast_twoTo, cast_twoTo,
      ← zpow_natCast 2 970]
    rfl
  rw [← value]
  exact_mod_cast Iff.rfl

section Units

variable {e : Int} (hd : 0 < den)
include hd

theorem roundedUnits_le (below : (num : ℚ) < 2 ^ 53 * 2 ^ e * den) :
    roundedUnits num den e ≤ twoTo 53 := by
  have scale := (units_lt_iff num den (twoTo 53) e).2 (by rwa [cast_twoTo])
  exact (roundHalfEven_le _ _).trans
    ((Nat.div_lt_iff_lt_mul (Nat.mul_pos hd (twoTo_pos _))).2 scale)

theorem le_roundedUnits (normal : 2 ^ 52 * 2 ^ e * den ≤ (num : ℚ)) :
    twoTo 52 ≤ roundedUnits num den e := by
  have scale := mt (units_lt_iff num den (twoTo 52) e).1
    (by rw [cast_twoTo]; exact not_lt.2 normal)
  exact ((Nat.le_div_iff_mul_le (Nat.mul_pos hd (twoTo_pos _))).2 (not_lt.1 scale)).trans
    (le_roundHalfEven _ _)

end Units

theorem lt_limit {e : Int} (small : e ≤ 970) (below : (num : ℚ) < 2 ^ 53 * 2 ^ e * den) :
    (num : ℚ) < limit * den := by
  have order : (2 : ℚ) ^ e ≤ 2 ^ (970 : Int) := zpow_le_zpow_right₀ one_le_two small
  have room : (2 : ℚ) ^ 53 ≤ 2 ^ 54 - 1 := by norm_num
  rw [limit_eq_mul]
  refine below.trans_le (mul_le_mul_of_nonneg_right ?_ (Nat.cast_nonneg _))
  exact mul_le_mul room order (by positivity) (by norm_num)

theorem limit_le {e : Int} (large : 972 ≤ e) (normal : 2 ^ 52 * 2 ^ e * den ≤ (num : ℚ)) :
    limit * den ≤ num := by
  have order : (2 : ℚ) ^ (972 : Int) ≤ 2 ^ e := zpow_le_zpow_right₀ one_le_two large
  have first : top = 2 ^ 52 * 2 ^ (972 : Int) := by
    rw [top, ← zpow_natCast, ← zpow_add₀ two_ne_zero]
    rfl
  calc
    limit * den ≤ top * den := mul_le_mul_of_nonneg_right limit_lt_top.le (Nat.cast_nonneg _)
    _ ≤ 2 ^ 52 * 2 ^ e * den := by
      rw [first]
      exact mul_le_mul_of_nonneg_right (mul_le_mul_of_nonneg_left order (by positivity))
        (Nat.cast_nonneg _)
    _ ≤ num := normal

/-- Below the last exponent the bits are those of a finite double, above it they are not, and at it
the rounding decides. -/
theorem nearestBits_lt_iff (hn : 0 < num) (hd : 0 < den) :
    nearestBits num den < infinityBits ↔ (num : ℚ) < limit * den := by
  obtain ⟨below, above⟩ := mantissaExponent_spec hn hd
  have least : leastExponent = -1074 := rfl
  have unit : twoTo 53 = 2 * twoTo 52 := rfl
  have positive := twoTo_pos 52
  rw [nearestBits, if_neg hn.ne', infinityBits_eq]
  generalize mantissaExponent num den = e at below above
  rw [min_lt_iff, or_iff_left (Nat.lt_irrefl _)]
  rcases lt_trichotomy e 971 with small | rfl | large
  · refine iff_of_true ?_ (lt_limit (by omega) below)
    have rounded := roundedUnits_le hd below
    have exponent : (e - leastExponent).toNat * twoTo 52 ≤ 2044 * twoTo 52 :=
      Nat.mul_le_mul_right _ (by omega)
    omega
  · have exponent : (971 - leastExponent).toNat = 2045 := rfl
    rw [← roundedUnits_carry_iff hd below, exponent, unit]
    omega
  · have normal := above.resolve_right (by omega)
    refine iff_of_false ?_ (not_lt.2 (limit_le (by omega) normal))
    have rounded := le_roundedUnits hd normal
    have exponent : 2046 * twoTo 52 ≤ (e - leastExponent).toNat * twoTo 52 :=
      Nat.mul_le_mul_right _ (by omega)
    omega

/-! ## Bits of a double -/

theorem not_isFinite_pack {f : UnpackedFloat} (infinite : ¬f.isFinite = true) :
    ¬(Float.ofModel (.pack f)).isFinite = true := by
  cases f with
  | infinity s => cases s <;> decide
  | notANumber => decide
  | zero s => exact (infinite rfl).elim
  | finite s m e positive => exact (infinite rfl).elim

theorem isFinite_ofBits_iff (b : UInt64) :
    (Float.ofBits b).isFinite = true ↔ b.toNat / twoTo 52 % twoTo 11 ≠ 2047 := by
  refine Iff.trans ?_ (isFinite_unpack_iff b.toBitVec)
  by_cases finite : (unpack Format.binary64 b.toBitVec).isFinite = true
  · obtain ⟨canonical, bound⟩ := canonical_unpack finite
    exact iff_of_true (isFinite_ofModel_pack canonical (bound.trans_lt largest_lt_top)).1 finite
  · exact iff_of_false (not_isFinite_pack finite) finite

theorem isFinite_ofBits_ofNat_iff {n : Nat} (within : n ≤ infinityBits) :
    (Float.ofBits (UInt64.ofNat n)).isFinite = true ↔ n < infinityBits := by
  have value : (UInt64.ofNat n).toNat = n := by
    rw [UInt64.toNat_ofNat_of_lt']
    exact Nat.lt_of_le_of_lt within (by decide)
  have unit : twoTo 52 = 2 ^ 52 := rfl
  have fields : twoTo 11 = 2048 := rfl
  rw [infinityBits_eq, unit] at within
  rw [isFinite_ofBits_iff, value, infinityBits_eq, unit, fields]
  omega

theorem isFinite_neg_iff (x : Float) : (-x).isFinite = true ↔ x.isFinite = true := by
  refine ⟨fun negated => ?_, fun finite => (isFinite_neg finite).1⟩
  by_contra infinite
  have same : ¬x.toModel.unpack.neg.isFinite = true := by
    change ¬x.toModel.unpack.isFinite = true at infinite
    cases unpacked : x.toModel.unpack with
    | infinity s => exact Bool.false_ne_true
    | notANumber => exact Bool.false_ne_true
    | zero s => exact (infinite (by rw [unpacked]; rfl)).elim
    | finite s m e positive => exact (infinite (by rw [unpacked]; rfl)).elim
  exact not_isFinite_pack same negated

/-! ## Decimals -/

theorem limit_pos : 0 < limit := by
  rw [limit_eq_mul]
  exact mul_pos (by norm_num) (zpow_pos two_pos _)

theorem cast_tenTo (n : Nat) : (tenTo n : ℚ) = 10 ^ n := Nat.cast_pow 10 n

theorem one_lt_limit : 1 < limit := by
  rw [limit_eq_mul]
  have first : (1 : ℚ) < 2 ^ 54 - 1 := by norm_num
  have second : (1 : ℚ) ≤ 2 ^ (970 : Int) := one_le_zpow₀ one_le_two (by decide)
  exact one_lt_mul_of_lt_of_le first second

/-- A decimal whose first digit stands behind the point is less than one. -/
theorem mul_zpow_lt_one {digits : Nat} {e : Int}
    (tiny : ((Nat.toDigits 10 digits).length : Int) + e ≤ 0) : (digits : ℚ) * 10 ^ e < 1 := by
  have length : 0 < (Nat.toDigits 10 digits).length :=
    List.length_pos_of_ne_nil (Text.natChars_ne_nil digits)
  have few : (digits : ℚ) < 10 ^ (Nat.toDigits 10 digits).length := by
    exact_mod_cast (Nat.length_toDigits_le_iff (by decide) length).1 (Nat.le_refl _)
  have unit : (0 : ℚ) < 10 ^ e := zpow_pos (by norm_num) _
  calc
    (digits : ℚ) * 10 ^ e < 10 ^ (Nat.toDigits 10 digits).length * 10 ^ e :=
      mul_lt_mul_of_pos_right few unit
    _ = 10 ^ ((Nat.toDigits 10 digits).length + e) := by
      rw [zpow_add₀ (by norm_num), zpow_natCast]
    _ ≤ 1 := zpow_le_one_of_nonpos₀ (by norm_num) tiny

theorem nearestBits_le (num den : Nat) : nearestBits num den ≤ infinityBits := by
  rw [nearestBits]
  split
  · exact Nat.zero_le _
  · exact Nat.min_le_right _ _

theorem top_le_mul_zpow {digits : Nat} {e : Int} (positive : 0 < digits) (large : 309 ≤ e) :
    top ≤ digits * 10 ^ e := by
  have power : (twoTo 1024 : ℚ) ≤ tenTo 309 := Nat.cast_le.2 (by decide +kernel)
  have one : (1 : ℚ) ≤ digits := by exact_mod_cast positive
  rw [cast_tenTo, cast_twoTo, ← zpow_natCast, ← zpow_natCast] at power
  calc
    top ≤ 10 ^ ((309 : Nat) : Int) := power
    _ ≤ 10 ^ e := zpow_le_zpow_right₀ (by norm_num) large
    _ ≤ digits * 10 ^ e := le_mul_of_one_le_left (zpow_nonneg (by norm_num) _) one

theorem isFinite_nearest_iff (digits : Nat) (e : Int) :
    (nearest digits e).isFinite = true ↔ (digits : ℚ) * 10 ^ e < limit := by
  rw [nearest]
  split
  · rename_i small
    refine iff_of_true ((isFinite_ofBits_ofNat_iff (Nat.zero_le _)).2 (by decide)) ?_
    rcases small with rfl | tiny
    · rw [Nat.cast_zero, zero_mul]
      exact limit_pos
    · exact (mul_zpow_lt_one (by omega)).trans one_lt_limit
  · rename_i notSmall
    have positive : 0 < digits := Nat.pos_of_ne_zero fun none => notSmall (.inl none)
    split
    · rename_i large
      refine iff_of_false (mt (isFinite_ofBits_ofNat_iff (le_refl _)).1 (Nat.lt_irrefl _))
        (not_lt.2 (limit_lt_top.le.trans (top_le_mul_zpow positive (by omega))))
    · have whole : 0 < digits * tenTo e.toNat := Nat.mul_pos positive (tenTo_pos _)
      rw [isFinite_ofBits_ofNat_iff (nearestBits_le _ _), nearestBits_lt_iff whole (tenTo_pos _),
        Nat.cast_mul, cast_tenTo, cast_tenTo, ← pow_toNat_mul_zpow (by norm_num) e]
      have unit : (0 : ℚ) < 10 ^ (-e).toNat := by positivity
      have scaled : (digits : ℚ) * (10 ^ (-e).toNat * 10 ^ e) =
          digits * 10 ^ e * 10 ^ (-e).toNat := by ring
      rw [scaled, mul_lt_mul_iff_left₀ unit]

/-! ## Numerals -/

/-- The digits of an unsigned numeral and its power of ten. -/
def unsignedNumeral? (cs : List Char) : Option (Nat × Int) :=
  let (whole, rest) := spanDigits cs
  let (fraction, rest) :=
    match rest with
    | '.' :: rest => spanDigits rest
    | _ => ([], rest)
  if whole.isEmpty && fraction.isEmpty then none
  else (readExponent? rest).map fun e =>
    (Text.digitsValue (whole ++ fraction), e - fraction.length)

/-- The same of a numeral with a sign, or without one. -/
def numeral? (cs : List Char) : Option (Nat × Int) := unsignedNumeral? (spanSign cs).2

/-- The text is a numeral, and what it stands for is not rounded to infinity. -/
def InRange (cs : List Char) : Prop :=
  ∃ digits e, numeral? cs = some (digits, e) ∧ (digits : ℚ) * 10 ^ e < limit

theorem unsignedNumeral?_starts {cs : List Char} {n : Nat × Int}
    (read : unsignedNumeral? cs = some n) :
    ∃ c rest, cs = c :: rest ∧ (c.isDigit = true ∨ c = '.') := by
  cases cs with
  | nil => cases read
  | cons c rest =>
    refine ⟨c, rest, rfl, or_iff_not_imp_left.2 fun noDigit => ?_⟩
    have other : c.isDigit = false := Bool.eq_false_iff.2 noDigit
    have run : spanDigits (c :: rest) = ([], c :: rest) := by
      rw [spanDigits, List.span_eq_takeWhile_dropWhile, List.takeWhile_cons, List.dropWhile_cons,
        other]
      rfl
    by_contra noPoint
    simp only [unsignedNumeral?, run] at read
    split at read
    · rename_i starts
      exact noPoint (List.cons.inj starts).1
    · cases read

theorem toLower_of_numeral {c : Char} (starts : c.isDigit = true ∨ c = '.') : c.toLower = c := by
  rcases starts with digit | rfl
  · have code := Text.toNat_of_isDigit digit
    refine dif_neg fun capital => ?_
    have first : 65 ≤ c.toNat := UInt32.le_iff_toNat_le.1 capital.1
    omega
  · rfl

/-- A word does not begin as a numeral does. -/
theorem unsignedNumeral?_word {cs : List Char} {c : Char} {w : List Char}
    (letter : c.isDigit = false ∧ c ≠ '.')
    (word : String.ofList (cs.map Char.toLower) = String.ofList (c :: w)) :
    unsignedNumeral? cs = none := by
  refine Option.eq_none_iff_forall_ne_some.2 fun n read => ?_
  obtain ⟨d, rest, rfl, starts⟩ := unsignedNumeral?_starts read
  have first := (List.cons.inj (String.ofList_injective word)).1
  rw [toLower_of_numeral starts] at first
  subst first
  rcases starts with digit | point
  · rw [letter.1] at digit
    cases digit
  · exact letter.2 point

theorem readUnsigned?_eq (cs : List Char) :
    readUnsigned? cs =
      let word := String.ofList (cs.map Char.toLower)
      if word = "inf" ∨ word = "infinity" then some (Float.ofBits (UInt64.ofNat infinityBits))
      else if word = "nan" then some (Float.ofBits 0x7ff8000000000000)
      else (unsignedNumeral? cs).map fun (digits, e) => nearest digits e := by
  rw [readUnsigned?]
  refine if_congr Iff.rfl rfl (if_congr Iff.rfl rfl ?_)
  rw [unsignedNumeral?, apply_ite (Option.map _), Option.map_none, Option.map_map]
  rfl

/-- A number that is read is finite exactly if it is a numeral that is not rounded to infinity. -/
theorem isFinite_readUnsigned?_iff {cs : List Char} {x : Float} (read : readUnsigned? cs = some x) :
    x.isFinite = true ↔
      ∃ digits e, unsignedNumeral? cs = some (digits, e) ∧ (digits : ℚ) * 10 ^ e < limit := by
  have never (noNumeral : unsignedNumeral? cs = none) :
      ¬∃ digits e, unsignedNumeral? cs = some (digits, e) ∧ (digits : ℚ) * 10 ^ e < limit := by
    rintro ⟨digits, e, numeral, -⟩
    rw [noNumeral] at numeral
    cases numeral
  rw [readUnsigned?_eq] at read
  dsimp only at read
  split at read
  · rename_i infinite
    cases read
    refine iff_of_false (mt (isFinite_ofBits_ofNat_iff (le_refl _)).1 (Nat.lt_irrefl _)) (never ?_)
    rcases infinite with short | long
    · exact unsignedNumeral?_word (by decide) short
    · exact unsignedNumeral?_word (by decide) long
  · split at read
    · rename_i nan
      cases read
      exact iff_of_false (by decide +kernel) (never (unsignedNumeral?_word (by decide) nan))
    · obtain ⟨⟨digits, e⟩, numeral, rfl⟩ := Option.map_eq_some_iff.1 read
      rw [isFinite_nearest_iff, numeral]
      refine ⟨fun below => ⟨digits, e, rfl, below⟩, ?_⟩
      rintro ⟨_, _, same, below⟩
      cases same
      exact below

theorem isFinite_readFloat?_iff {cs : List Char} {x : Float} (read : readFloat? cs = some x) :
    x.isFinite = true ↔ InRange cs := by
  have parts : ∃ y, readUnsigned? (spanSign cs).2 = some y ∧ signed (spanSign cs).1 y = x :=
    Option.map_eq_some_iff.1 read
  obtain ⟨y, unsigned, rfl⟩ := parts
  refine Iff.trans ?_ (isFinite_readUnsigned?_iff unsigned)
  rw [signed]
  split
  · exact isFinite_neg_iff y
  · exact Iff.rfl

end BlockSchematic.Decimal
