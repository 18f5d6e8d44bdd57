import BlockSchematic.Json.Lexical
import BlockSchematic.Json.Value
import BlockSchematic.Proofs.NumberText

/-!
# Numbers in front of other text

A number that reads alone reads the same in front of any text that cannot go on with it. A written
whole number that fits 64 bits reads alone, as itself.
-/

namespace BlockSchematic.Json

open Text (intChars natChars)

/-- The text does not go on with a number in front of it. -/
def EndsNumber (rest : List Char) : Prop :=
  ∀ c ∈ rest.head?, c.isDigit = false ∧ c ≠ '.' ∧ c ≠ 'e' ∧ c ≠ 'E'

theorem endsNumber_nil : EndsNumber [] := by simp [EndsNumber]

theorem endsNumber_cons {c : Char} {rest : List Char}
    (ends : c.isDigit = false ∧ c ≠ '.' ∧ c ≠ 'e' ∧ c ≠ 'E') : EndsNumber (c :: rest) := by
  intro d hd
  cases hd
  exact ends

variable {rest : List Char}

/-! ## What follows a number is left alone -/

theorem accumulate_append (ends : EndsNumber rest) (limit value count : Nat) (cs : List Char) :
    accumulate limit value count (cs ++ rest) =
      ((accumulate limit value count cs).1, (accumulate limit value count cs).2.1,
        (accumulate limit value count cs).2.2 ++ rest) := by
  induction cs generalizing value count with
  | nil =>
    cases rest with
    | nil => rfl
    | cons c rest => simp [accumulate, (ends c rfl).1]
  | cons c cs ih =>
    simp only [List.cons_append, accumulate]
    split
    · exact ih _ _
    · rfl

theorem startsWithDigit_append (ends : EndsNumber rest) (cs : List Char) :
    startsWithDigit (cs ++ rest) = startsWithDigit cs := by
  cases cs with
  | cons c cs => rfl
  | nil =>
    cases rest with
    | nil => rfl
    | cons c rest => exact (ends c rfl).1

theorem startsWithExponent_append (ends : EndsNumber rest) (cs : List Char) :
    startsWithExponent (cs ++ rest) = startsWithExponent cs := by
  cases cs with
  | cons c cs => rfl
  | nil =>
    cases rest with
    | nil => rfl
    | cons c rest => simp [startsWithExponent, ends c rfl]

theorem dropWhile_isDigit_append (ends : EndsNumber rest) (cs : List Char) :
    (cs ++ rest).dropWhile Char.isDigit = cs.dropWhile Char.isDigit ++ rest := by
  induction cs with
  | nil =>
    cases rest with
    | nil => rfl
    | cons c rest => simp [(ends c rfl).1]
  | cons c cs ih =>
    simp only [List.cons_append, List.dropWhile_cons]
    split
    · exact ih
    · rfl

theorem takeWhile_isDigit_append (ends : EndsNumber rest) (cs : List Char) :
    (cs ++ rest).takeWhile Char.isDigit = cs.takeWhile Char.isDigit := by
  induction cs with
  | nil =>
    cases rest with
    | nil => rfl
    | cons c rest => simp [(ends c rfl).1]
  | cons c cs ih =>
    simp only [List.cons_append, List.takeWhile_cons, ih]

variable {n : Number} {left : List Char} {minus : Bool} {digits : Nat} {e : Int} {cs : List Char}

theorem elim_error {α : Type} {f : Fault} {a : α} {q : Prop}
    (read : (.error f : Except Fault α) = .ok a) : q := by cases read

/-- Whichever branch gave the first result, the same branch gives the second. -/
theorem ite_eq_ok {α : Type} {p : Prop} [Decidable p] {yes no yes' no' : Except Fault α} {a b : α}
    (ifYes : yes = .ok a → yes' = .ok b) (ifNo : no = .ok a → no' = .ok b)
    (read : (if p then yes else no) = .ok a) : (if p then yes' else no') = .ok b := by
  split at read
  · rename_i h
    rw [if_pos h, ifYes read]
  · rename_i h
    rw [if_neg h, ifNo read]

theorem map_pair_append {α : Type} {result : Except Fault α} {a : α}
    (read : result.map (·, cs) = .ok (a, left)) :
    result.map (·, cs ++ rest) = .ok (a, left ++ rest) := by
  cases result with
  | error f => cases read
  | ok b =>
    cases read
    rfl

theorem readShift_append (ends : EndsNumber rest) {down : Bool}
    (read : readShift minus digits e down cs = .ok (n, left)) :
    readShift minus digits e down (cs ++ rest) = .ok (n, left ++ rest) := by
  cases cs with
  | nil => cases read
  | cons c cs =>
    have run := accumulate_append ends (WordBound.signed32 - 1) 0 0 (c :: cs)
    rw [List.cons_append] at run
    simp only [List.cons_append, readShift, run, startsWithDigit_append ends,
      dropWhile_isDigit_append ends] at read ⊢
    refine ite_eq_ok elim_error (ite_eq_ok (ite_eq_ok elim_error fun zero => ?_) map_pair_append) read
    cases zero
    rfl

theorem readExponent_append (ends : EndsNumber rest)
    (read : readExponent minus digits e cs = .ok (n, left)) :
    readExponent minus digits e (cs ++ rest) = .ok (n, left ++ rest) := by
  rw [readExponent.eq_def] at read
  split at read
  · exact readShift_append ends read
  · exact readShift_append ends read
  · rename_i noPlus noMinus
    cases cs with
    | nil => cases read
    | cons c cs =>
      rw [List.cons_append, readExponent.eq_3]
      · exact readShift_append ends read
      · rintro _ plus
        cases plus
        exact noPlus cs rfl
      · rintro _ minus
        cases minus
        exact noMinus cs rfl

theorem readScale_append (ends : EndsNumber rest)
    (read : readScale minus digits e cs = .ok (n, left)) :
    readScale minus digits e (cs ++ rest) = .ok (n, left ++ rest) := by
  cases cs with
  | cons c cs => exact ite_eq_ok (readExponent_append ends) map_pair_append read
  | nil =>
    have noScale : readScale minus digits e rest = (makeDouble minus digits e).map (·, rest) := by
      cases rest with
      | nil => rfl
      | cons c rest => simp [readScale, ends c rfl]
    rw [List.nil_append, noScale]
    exact map_pair_append read

theorem readFraction_append (ends : EndsNumber rest)
    (read : readFraction minus digits e cs = .ok (n, left)) :
    readFraction minus digits e (cs ++ rest) = .ok (n, left ++ rest) := by
  simp only [readFraction, accumulate_append ends, startsWithDigit_append ends,
    dropWhile_isDigit_append ends] at read ⊢
  refine ite_eq_ok (readScale_append ends) (ite_eq_ok (fun refused => ?_) (readScale_append ends))
    read
  split at refused <;> cases refused

theorem no_point_append (ends : EndsNumber rest) (noPoint : ∀ t, cs = '.' :: t → False) :
    ∀ t, cs ++ rest = '.' :: t → False := by
  intro t starts
  cases cs with
  | cons c cs =>
    cases starts
    exact noPoint cs rfl
  | nil => exact (ends '.' (by rw [← List.nil_append rest, starts]; rfl)).2.1 rfl

theorem afterWhole_append (ends : EndsNumber rest)
    (read : afterWhole minus digits cs = .ok (n, left)) :
    afterWhole minus digits (cs ++ rest) = .ok (n, left ++ rest) := by
  rw [afterWhole.eq_def] at read
  split at read
  · exact readFraction_append ends read
  · rename_i noPoint
    rw [afterWhole.eq_2 _ _ _ (no_point_append ends noPoint), startsWithExponent_append ends]
    refine ite_eq_ok (readScale_append ends) (fun whole => ?_) read
    cases whole
    rfl

theorem afterLong_append (ends : EndsNumber rest)
    (read : afterLong minus digits cs = .ok (n, left)) :
    afterLong minus digits (cs ++ rest) = .ok (n, left ++ rest) := by
  simp only [afterLong] at read ⊢
  rw [takeWhile_isDigit_append ends, dropWhile_isDigit_append ends]
  split at read
  · rename_i point
    simp only [point, List.cons_append]
    exact readFraction_append ends read
  · rename_i noPoint
    split
    · rename_i point
      exact (no_point_append ends noPoint _ point).elim
    · exact readScale_append ends read

theorem readUnsigned_append (ends : EndsNumber rest)
    (read : readUnsigned minus cs = .ok (n, left)) :
    readUnsigned minus (cs ++ rest) = .ok (n, left ++ rest) := by
  cases cs with
  | nil => cases read
  | cons c cs =>
    have run := accumulate_append ends (WordBound.unsigned64 - 1) 0 0 (c :: cs)
    rw [List.cons_append] at run
    simp only [List.cons_append, readUnsigned, run, startsWithDigit_append ends] at read ⊢
    exact ite_eq_ok (ite_eq_ok elim_error (afterWhole_append ends))
      (ite_eq_ok (ite_eq_ok (afterLong_append ends) (afterWhole_append ends)) elim_error) read

/-- A number that reads alone reads the same in front of what does not go on with it. -/
theorem readNumber_append (ends : EndsNumber rest) (read : readNumber cs = .ok (n, left)) :
    readNumber (cs ++ rest) = .ok (n, left ++ rest) := by
  rw [readNumber.eq_def] at read
  split at read
  · exact readUnsigned_append ends read
  · rename_i noMinus
    cases cs with
    | nil => cases read
    | cons c cs =>
      rw [List.cons_append, readNumber.eq_2]
      · exact readUnsigned_append ends read
      · rintro _ minus
        cases minus
        exact noMinus cs rfl

/-! ## Whole numbers -/

theorem le_ofDigitChars (ds : List Char) (value : Nat) : value ≤ Nat.ofDigitChars 10 ds value := by
  induction ds generalizing value with
  | nil => exact Nat.le_refl _
  | cons d ds ih =>
    rw [Nat.ofDigitChars_cons]
    exact Nat.le_trans (by omega) (ih _)

/-- Digits are taken up to what is no digit as long as their value stays within the limit. -/
theorem accumulate_digits {ds tail : List Char} (allDigits : ∀ d ∈ ds, d.isDigit = true)
    (ends : startsWithDigit tail = false) {limit value : Nat}
    (within : Nat.ofDigitChars 10 ds value ≤ limit) (count : Nat) :
    accumulate limit value count (ds ++ tail) =
      (Nat.ofDigitChars 10 ds value, count + ds.length, tail) := by
  induction ds generalizing value count with
  | nil =>
    cases tail with
    | nil => rfl
    | cons c tail =>
      have other : c.isDigit = false := ends
      simp only [List.nil_append, accumulate, other, Bool.false_and, Bool.false_eq_true, if_false]
      rfl
  | cons d ds ih =>
    obtain ⟨digit, others⟩ := List.forall_mem_cons.1 allDigits
    rw [Nat.ofDigitChars_cons, Nat.mul_comm] at within
    have small : value * 10 + (d.toNat - '0'.toNat) ≤ limit :=
      Nat.le_trans (le_ofDigitChars ds _) within
    simp only [List.cons_append, accumulate, digit, small, decide_true, Bool.and_self, if_true]
    rw [ih others within, Nat.ofDigitChars_cons, Nat.mul_comm 10, List.length_cons]
    congr 2
    omega

/-- Only zero is written with a zero in front. -/
theorem head_natChars_ne_zero {n : Nat} (positive : 0 < n) :
    ∃ d ds, natChars n = d :: ds ∧ d ≠ '0' := by
  induction n using Nat.strongRecOn with
  | ind n ih =>
    rw [natChars]
    by_cases small : n < 10
    · rw [Nat.toDigits_of_lt_base small]
      refine ⟨_, _, rfl, fun zero => ?_⟩
      have code := Nat.toNat_digitChar_of_lt_ten small
      rw [zero] at code
      have : ('0' : Char).toNat = 48 := rfl
      omega
    · obtain ⟨d, ds, starts, notZero⟩ := ih (n / 10) (by omega) (by omega)
      rw [natChars] at starts
      rw [Nat.toDigits_of_base_le (by decide) (by omega), starts]
      exact ⟨d, _, rfl, notZero⟩

/-- A number that fits 64 bits is read to its last digit. -/
theorem readUnsigned_natChars (minus : Bool) {n : Nat} (small : n < WordBound.unsigned64) :
    readUnsigned minus (natChars n) = .ok (wholeNumber minus n, []) := by
  rcases Nat.eq_zero_or_pos n with rfl | positive
  · rfl
  · have allDigits := List.all_eq_true.1 (Text.all_isDigit_natChars n)
    have value : Nat.ofDigitChars 10 (natChars n) 0 = n := Nat.ofDigitChars_ten_toDigits
    have fits : Nat.ofDigitChars 10 (natChars n) 0 ≤ WordBound.unsigned64 - 1 := by omega
    have run := accumulate_digits allDigits (rfl : startsWithDigit [] = false) fits 0
    obtain ⟨d, ds, starts, notZero⟩ := head_natChars_ne_zero positive
    rw [value, List.append_nil] at run
    rw [starts] at run allDigits ⊢
    have digit : d.isDigit = true := allDigits d List.mem_cons_self
    simp only [readUnsigned, notZero, digit, run, if_true, if_false]
    rfl

theorem readNumber_intChars {n : Int} (small : n.natAbs < WordBound.unsigned64) :
    readNumber (intChars n) = .ok (wholeNumber (decide (n < 0)) n.natAbs, []) := by
  rw [intChars]
  split
  · rename_i negative
    rw [decide_eq_true negative]
    exact readUnsigned_natChars true small
  · rename_i natural
    rw [decide_eq_false natural, ← readUnsigned_natChars false small, readNumber.eq_2]
    intro rest starts
    have digit := List.all_eq_true.1 (Text.all_isDigit_natChars n.natAbs) '-'
      (starts ▸ List.mem_cons_self)
    cases digit

end BlockSchematic.Json
