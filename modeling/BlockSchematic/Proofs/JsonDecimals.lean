import BlockSchematic.Json.Value
import BlockSchematic.Proofs.JsonNumbers
import Mathlib.Algebra.Group.Nat.Defs

/-!
# Written decimals are read

A decimal is written with a point or with an exponent. Either way its digits and its power of ten
are found again, and reading it succeeds if the digits can be scaled by that power.
-/

namespace BlockSchematic.Json

open Text (natChars)

/-! ## Scaling -/

/-- The digits can be scaled by the power of ten. -/
def Scales (digits : Nat) (e : Int) : Prop :=
  ∃ y, scaleByTens (UInt64.ofNat digits).toFloat e = .ok y

/-- A division never fails. -/
theorem exists_scaleByTens_of_neg {e : Int} (negative : e < 0) (f : Float) :
    ∃ y, scaleByTens f e = .ok y := by
  fun_induction scaleByTens f e with
  | case1 | case2 | case3 | case4 => omega
  | case5 => exact ⟨_, rfl⟩
  | case6 => exact ⟨_, rfl⟩
  | case7 f e large notWhole far nonzero ih => exact ih (by omega)

theorem scales_of_neg {e : Int} (negative : e < 0) (digits : Nat) : Scales digits e :=
  exists_scaleByTens_of_neg negative _

theorem Scales.makeDouble {digits : Nat} {e : Int} (scales : Scales digits e) (minus : Bool)
    (rest : List Char) :
    ∃ y, (makeDouble minus digits e).map (·, rest) = .ok (.double y, rest) := by
  obtain ⟨y, scaled⟩ := scales
  exact ⟨Decimal.signed minus y, by rw [Json.makeDouble, scaled]; rfl⟩

/-! ## Numbers with a point -/

section Point

variable {fraction tail : List Char} (digits : ∀ d ∈ fraction, d.isDigit = true)
  (ends : startsWithDigit tail = false)
include digits ends

theorem readFraction_digits (minus : Bool) {value : Nat} (nonempty : fraction ≠ [])
    (fits : Nat.ofDigitChars 10 fraction value < WordBound.unsigned64) :
    readFraction minus value 0 (fraction ++ tail) =
      readScale minus (Nat.ofDigitChars 10 fraction value) (-(fraction.length : Int)) tail := by
  have within : Nat.ofDigitChars 10 fraction value ≤ WordBound.unsigned64 - 1 := by omega
  have some_digit : ¬fraction.length = 0 := fun none => nonempty (List.length_eq_zero_iff.1 none)
  simp only [readFraction, accumulate_digits digits ends within, Nat.zero_add, ends,
    Bool.false_eq_true, if_false, some_digit]
  rw [Int.zero_sub]

/-- The digits in front of the point do not begin with a zero. -/
theorem readUnsigned_point (minus : Bool) {d : Char} {whole : List Char}
    (wholeDigits : ∀ c ∈ d :: whole, c.isDigit = true) (notZero : d ≠ '0')
    (nonempty : fraction ≠ []) {value : Nat}
    (same : Nat.ofDigitChars 10 (d :: whole ++ fraction) 0 = value)
    (fits : value < WordBound.unsigned64) :
    readUnsigned minus (d :: whole ++ '.' :: (fraction ++ tail)) =
      readScale minus value (-(fraction.length : Int)) tail := by
  rw [Nat.ofDigitChars_append] at same
  subst same
  have front := le_ofDigitChars fraction (Nat.ofDigitChars 10 (d :: whole) 0)
  have within : Nat.ofDigitChars 10 (d :: whole) 0 ≤ WordBound.unsigned64 - 1 := by omega
  have stops : startsWithDigit ('.' :: (fraction ++ tail)) = false := rfl
  have run := accumulate_digits wholeDigits stops within 0
  rw [List.cons_append] at run ⊢
  simp only [readUnsigned, notZero, if_false, wholeDigits d List.mem_cons_self, if_true, run, stops,
    Bool.false_eq_true, afterWhole]
  exact readFraction_digits digits ends minus nonempty fits

theorem readUnsigned_zero_point (minus : Bool) (nonempty : fraction ≠ [])
    (fits : Nat.ofDigitChars 10 fraction 0 < WordBound.unsigned64) :
    readUnsigned minus ('0' :: '.' :: (fraction ++ tail)) =
      readScale minus (Nat.ofDigitChars 10 fraction 0) (-(fraction.length : Int)) tail :=
  readFraction_digits digits ends minus nonempty fits

end Point

/-! ## Numbers with an exponent -/

/-- An exponent is written with its sign. -/
def exponentMark (e : Int) : List Char :=
  'e' :: (if e < 0 then '-' else '+') :: natChars e.natAbs

theorem startsWithDigit_exponentMark (e : Int) : startsWithDigit (exponentMark e) = false := rfl

theorem readScale_exponentMark (minus : Bool) (digits : Nat) (shift : Int) {e : Int}
    (small : e.natAbs < WordBound.signed32) :
    readScale minus digits shift (exponentMark e) =
      (makeDouble minus digits (shift + e)).map (·, []) := by
  have allDigits := List.all_eq_true.1 (Text.all_isDigit_natChars e.natAbs)
  have value : Nat.ofDigitChars 10 (natChars e.natAbs) 0 = e.natAbs := Nat.ofDigitChars_ten_toDigits
  have fits : Nat.ofDigitChars 10 (natChars e.natAbs) 0 ≤ WordBound.signed32 - 1 := by omega
  have run := accumulate_digits allDigits (rfl : startsWithDigit [] = false) fits 0
  rw [value, List.append_nil] at run
  obtain ⟨c, cs, whole⟩ := List.exists_cons_of_ne_nil (Text.natChars_ne_nil e.natAbs)
  have digit : c.isDigit = true := allDigits c (by rw [whole]; exact List.mem_cons_self)
  have shifted (down : Bool) : readShift minus digits shift down (natChars e.natAbs) =
      (makeDouble minus digits (if down then shift - e.natAbs else shift + e.natAbs)).map
        (·, []) := by
    rw [whole] at run ⊢
    simp only [readShift, digit, Bool.not_true, Bool.false_eq_true, if_false, run]
    rfl
  rw [exponentMark, readScale, if_pos (.inl rfl)]
  split
  · rename_i negative
    have exponent : shift - e.natAbs = shift + e := by omega
    rw [readExponent, shifted, if_pos rfl, exponent]
  · rename_i positive
    have exponent : shift + e.natAbs = shift + e := by omega
    rw [readExponent, shifted, if_neg Bool.false_ne_true, exponent]

theorem readUnsigned_digit (minus : Bool) {d : Char} (digit : d.isDigit = true) (notZero : d ≠ '0')
    (e : Int) :
    readUnsigned minus (d :: exponentMark e) =
      readScale minus (Nat.ofDigitChars 10 [d] 0) 0 (exponentMark e) := by
  have allDigits : ∀ c ∈ [d], c.isDigit = true := by simpa using digit
  have fits : Nat.ofDigitChars 10 [d] 0 ≤ WordBound.unsigned64 - 1 := by
    have code := Text.toNat_of_isDigit digit
    have zero : ('0' : Char).toNat = 48 := rfl
    rw [Nat.ofDigitChars_cons, Nat.ofDigitChars_nil, WordBound.unsigned64]
    omega
  have stops := startsWithDigit_exponentMark e
  have run := accumulate_digits allDigits stops fits 0
  rw [List.cons_append, List.nil_append] at run
  simp only [readUnsigned, notZero, if_false, digit, if_true, run, stops, Bool.false_eq_true]
  rfl

/-! ## The written form -/

/-- The number is read to its end, as a double. -/
def ReadsDouble (cs : List Char) : Prop := ∀ minus, ∃ y, readUnsigned minus cs = .ok (.double y, [])

theorem readsDouble_of_scales {cs : List Char} {digits : Nat} {e : Int} (scales : Scales digits e)
    (read : ∀ minus, readUnsigned minus cs = (makeDouble minus digits e).map (·, [])) :
    ReadsDouble cs := by
  intro minus
  rw [read]
  exact scales.makeDouble minus []

theorem isDigit_of_mem_replicate {c : Char} {n : Nat} (h : c ∈ List.replicate n '0') :
    c.isDigit = true := by
  rw [List.eq_of_mem_replicate h]
  rfl

section Written

variable {n : Nat} (positive : 0 < n)
include positive

theorem readsDouble_whole {k : Nat} (short : (natChars n).length + k ≤ 16) :
    ReadsDouble (Decimal.positionalChars true (natChars n) k) := by
  have value : Nat.ofDigitChars 10 (natChars n) 0 = n := Nat.ofDigitChars_ten_toDigits
  have digits := List.all_eq_true.1 (Text.all_isDigit_natChars n)
  have form : Decimal.positionalChars true (natChars n) k =
      natChars n ++ List.replicate k '0' ++ '.' :: (['0'] ++ []) := by
    rw [Decimal.positionalChars, if_pos (Int.natCast_nonneg k), Int.toNat_natCast, if_pos rfl]
    rfl
  have zeros := List.forall_mem_append.2 ⟨digits, fun _ => isDigit_of_mem_replicate (n := k)⟩
  have last : ∀ c ∈ ['0'], c.isDigit = true := List.forall_mem_singleton.2 rfl
  have all : Nat.ofDigitChars 10 (natChars n ++ List.replicate k '0' ++ ['0']) 0 =
      10 ^ (k + 1) * n := by
    rw [List.append_assoc, ← List.replicate_succ', Nat.ofDigitChars_append,
      Nat.ofDigitChars_replicate_zero, value]
  have fits : 10 ^ (k + 1) * n < WordBound.unsigned64 := by
    have length : 0 < (natChars n).length := List.length_pos_of_ne_nil (Text.natChars_ne_nil n)
    have bound : n < 10 ^ (natChars n).length :=
      (Nat.length_toDigits_le_iff (by decide) length).1 (Nat.le_refl _)
    calc
      10 ^ (k + 1) * n ≤ 10 ^ (k + 1) * 10 ^ (natChars n).length :=
        Nat.mul_le_mul_left _ (Nat.le_of_lt bound)
      _ = 10 ^ (k + 1 + (natChars n).length) := (Nat.pow_add ..).symm
      _ ≤ 10 ^ 17 := Nat.pow_le_pow_right (by decide) (by omega)
      _ < WordBound.unsigned64 := by decide
  obtain ⟨d, ds, whole, notZero⟩ := head_natChars_ne_zero positive
  refine readsDouble_of_scales (scales_of_neg (by decide : (-1 : Int) < 0) (10 ^ (k + 1) * n))
    fun minus => ?_
  rw [form]
  rw [whole] at zeros all ⊢
  exact readUnsigned_point last (rfl : startsWithDigit [] = false) minus zeros notZero
    (List.cons_ne_nil _ _) all fits

variable (few : n < 10 ^ 17)
include few

/-- The point stands between two of the digits. -/
theorem readUnsigned_split (minus : Bool) {places : Nat} (some_place : 0 < places)
    (inside : places < (natChars n).length) :
    readUnsigned minus ((natChars n).take ((natChars n).length - places) ++
        '.' :: (natChars n).drop ((natChars n).length - places)) =
      (makeDouble minus n (-places)).map (·, []) := by
  have value : Nat.ofDigitChars 10 (natChars n) 0 = n := Nat.ofDigitChars_ten_toDigits
  have digits := List.all_eq_true.1 (Text.all_isDigit_natChars n)
  have fits : n < WordBound.unsigned64 := Nat.lt_trans few (by decide)
  obtain ⟨d, ds, whole, notZero⟩ := head_natChars_ne_zero positive
  rw [whole] at value digits inside ⊢
  obtain ⟨front, length⟩ := Nat.exists_eq_add_of_lt inside
  have first : (d :: ds).length - places = front + 1 := by omega
  have last : (ds.drop front).length = places := by
    rw [List.length_drop]
    rw [List.length_cons] at length
    omega
  have joined : d :: ds.take front ++ ds.drop front = d :: ds := by
    rw [List.cons_append, List.take_append_drop]
  rw [← joined] at digits
  obtain ⟨before, after⟩ := List.forall_mem_append.1 digits
  have nonempty : ds.drop front ≠ [] := List.ne_nil_of_length_pos (by omega)
  have read := readUnsigned_point after (rfl : startsWithDigit [] = false) minus before notZero
    nonempty (joined.symm ▸ value) fits
  rw [List.append_nil, last] at read
  rw [first, List.take_succ_cons, List.drop_succ_cons]
  exact read

omit positive in
/-- The point stands in front of all digits, after a zero, with zeros between. -/
theorem readUnsigned_filled (minus : Bool) (zeros : Nat) :
    readUnsigned minus ('0' :: '.' :: List.replicate zeros '0' ++ natChars n) =
      (makeDouble minus n (-(zeros + (natChars n).length : Nat))).map (·, []) := by
  have value : Nat.ofDigitChars 10 (natChars n) 0 = n := Nat.ofDigitChars_ten_toDigits
  have digits := List.all_eq_true.1 (Text.all_isDigit_natChars n)
  have fits : n < WordBound.unsigned64 := Nat.lt_trans few (by decide)
  have all := List.forall_mem_append.2 ⟨fun _ => isDigit_of_mem_replicate (n := zeros), digits⟩
  have nonempty : List.replicate zeros '0' ++ natChars n ≠ [] :=
    List.append_ne_nil_of_right_ne_nil _ (Text.natChars_ne_nil n)
  have same : Nat.ofDigitChars 10 (List.replicate zeros '0' ++ natChars n) 0 = n := by
    rw [Nat.ofDigitChars_append, Nat.ofDigitChars_replicate_zero, Nat.mul_zero, value]
  have read := readUnsigned_zero_point all (rfl : startsWithDigit [] = false) minus nonempty
    (same.symm ▸ fits)
  rw [List.append_nil, List.length_append, List.length_replicate, same] at read
  exact read

theorem readsDouble_fraction {k : Int} (negative : k < 0) :
    ReadsDouble (Decimal.positionalChars true (natChars n) k) := by
  have exponent : -((-k).toNat : Int) = k := by omega
  rw [Decimal.positionalChars, if_neg (by omega)]
  refine readsDouble_of_scales (scales_of_neg negative n) fun minus => ?_
  dsimp only
  split
  · rename_i inside
    rw [readUnsigned_split positive few minus (by omega) inside, exponent]
  · rename_i outside
    rw [readUnsigned_filled few, Nat.sub_add_cancel (Nat.le_of_not_lt outside), exponent]

theorem readsDouble_exponent {k : Int} (scales : Scales n k)
    (small : (k + (natChars n).length - 1).natAbs < WordBound.signed32) :
    ReadsDouble (Decimal.exponentChars (natChars n) (k + (natChars n).length - 1)) := by
  have value : Nat.ofDigitChars 10 (natChars n) 0 = n := Nat.ofDigitChars_ten_toDigits
  have digits := List.all_eq_true.1 (Text.all_isDigit_natChars n)
  have fits : n < WordBound.unsigned64 := Nat.lt_trans few (by decide)
  obtain ⟨d, ds, whole, notZero⟩ := head_natChars_ne_zero positive
  rw [whole] at value digits small ⊢
  obtain ⟨digit, others⟩ := List.forall_mem_cons.1 digits
  refine readsDouble_of_scales scales fun minus => ?_
  cases ds with
  | nil =>
    have exponent : 0 + (k + (([d] : List Char).length : Int) - 1) = k := by
      rw [List.length_singleton]
      omega
    have read := readUnsigned_digit minus digit notZero (k + (([d] : List Char).length : Int) - 1)
    rw [readScale_exponentMark minus _ 0 small, exponent, value] at read
    exact read
  | cons c cs =>
    have exponent : -((c :: cs).length : Int) + (k + ((d :: c :: cs).length : Int) - 1) = k := by
      rw [List.length_cons (a := d)]
      omega
    have first : ∀ a ∈ [d], a.isDigit = true := by simpa using digit
    have read := readUnsigned_point others
      (startsWithDigit_exponentMark (k + ((d :: c :: cs).length : Int) - 1)) minus first notZero
      (List.cons_ne_nil c cs) value fits
    rw [readScale_exponentMark minus _ _ small, exponent] at read
    exact read

/-- However the layout of a document writes the decimal, it is read, if the multiplication that a
positive power of ten asks for stays finite. -/
theorem readsDouble_decimalChars {k : Int} (inReach : -400 ≤ k ∧ k ≤ 400)
    (scales : 0 ≤ k → Scales n k) :
    ReadsDouble (Decimal.documentLayout.decimalChars (natChars n) k) := by
  have length : (natChars n).length ≤ 17 :=
    (Nat.length_toDigits_le_iff (by decide) (by decide)).2 few
  change ReadsDouble (if _ then _ else _)
  split
  · rename_i positional
    rcases Int.lt_or_le k 0 with negative | whole
    · exact readsDouble_fraction positive few negative
    · obtain ⟨zeros, rfl⟩ := Int.eq_ofNat_of_zero_le whole
      exact readsDouble_whole positive (by omega)
  · have small : (k + (natChars n).length - 1).natAbs < WordBound.signed32 := by
      rw [WordBound.signed32]
      omega
    refine readsDouble_exponent positive few ?_ small
    rcases Int.lt_or_le k 0 with negative | whole
    · exact scales_of_neg negative n
    · exact scales whole

end Written

end BlockSchematic.Json
