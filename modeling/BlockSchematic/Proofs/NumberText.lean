import BlockSchematic.Proofs.Tokens
import BlockSchematic.Symbol.Describe
import BlockSchematic.Symbol.Extract
import Mathlib.Data.List.TakeWhile

/-!
# Whole numbers as atoms

A whole number is written as digits, with a minus in front if it is negative. This is a bare text,
and the number at its start is the number that was written.
-/

namespace BlockSchematic

namespace Text

theorem toNat_of_isDigit {c : Char} (h : c.isDigit = true) : 48 ≤ c.toNat ∧ c.toNat ≤ 57 := by
  simp only [Char.isDigit, Bool.and_eq_true, decide_eq_true_eq] at h
  obtain ⟨lower, upper⟩ := h
  exact ⟨UInt32.le_iff_toNat_le.1 lower, UInt32.le_iff_toNat_le.1 upper⟩

theorem isBlank_eq_false_of_isDigit {c : Char} (h : c.isDigit = true) : isBlank c = false := by
  have bounds := toNat_of_isDigit h
  simp only [isBlank, Bool.or_eq_false_iff, Bool.and_eq_false_iff, decide_eq_false_iff_not,
    beq_eq_false_iff_ne]
  omega

theorem dropWhile_isBlank_eq_self {cs : List Char} (h : ∀ c ∈ cs, isBlank c = false) :
    cs.dropWhile isBlank = cs := by
  cases cs with
  | nil => rfl
  | cons c cs => exact trimStart_cons_of_not_isBlank (h c List.mem_cons_self)

theorem trimChars_eq_self {cs : List Char} (h : ∀ c ∈ cs, isBlank c = false) :
    trimChars cs = cs := by
  have backwards : ∀ c ∈ cs.reverse, isBlank c = false := fun c hc => h c (List.mem_reverse.1 hc)
  rw [trimChars, trimStart, dropWhile_isBlank_eq_self h, trimEnd,
    dropWhile_isBlank_eq_self backwards, List.reverse_reverse]

/-- A number is digits after at most one character, which is a digit or a minus. -/
theorem exists_intChars_eq_cons (n : Int) :
    ∃ c rest, intChars n = c :: rest ∧ (c.isDigit = true ∨ c = '-') ∧
      ∀ d ∈ rest, d.isDigit = true := by
  have digits := List.all_eq_true.1 (all_isDigit_natChars n.natAbs)
  rw [intChars]
  split
  · exact ⟨'-', _, rfl, .inr rfl, digits⟩
  · obtain ⟨c, rest, split⟩ := List.exists_cons_of_ne_nil (natChars_ne_nil n.natAbs)
    rw [split] at digits ⊢
    obtain ⟨first, others⟩ := List.forall_mem_cons.1 digits
    exact ⟨c, rest, rfl, .inl first, others⟩

theorem isDigit_or_minus_of_mem_intChars {n : Int} {c : Char} (h : c ∈ intChars n) :
    c.isDigit = true ∨ c = '-' := by
  obtain ⟨first, rest, whole, sign, digits⟩ := exists_intChars_eq_cons n
  rw [whole] at h
  rcases List.mem_cons.1 h with rfl | later
  · exact sign
  · exact .inl (digits c later)

theorem isBlank_eq_false_of_mem_intChars {n : Int} {c : Char} (h : c ∈ intChars n) :
    isBlank c = false := by
  rcases isDigit_or_minus_of_mem_intChars h with digit | rfl
  · exact isBlank_eq_false_of_isDigit digit
  · decide

/-- Digits without a sign are read as their value. -/
theorem readInt?_of_digits {cs : List Char} (ne_nil : cs ≠ [])
    (digits : ∀ c ∈ cs, c.isDigit = true) : readInt? cs = some (digitsValue cs : Int) := by
  have read : readDigits? cs = some (digitsValue cs) := by
    rw [readDigits?, List.all_eq_true.2 digits, List.isEmpty_eq_false_iff.2 ne_nil]
    rfl
  have noSign : ∀ c rest, c.isDigit = false → cs ≠ c :: rest := by
    rintro c rest sign rfl
    rw [digits c List.mem_cons_self] at sign
    cases sign
  rw [readInt?]
  · simp [read]
  · exact fun rest => noSign '-' rest (by decide)
  · exact fun rest => noSign '+' rest (by decide)

theorem readInt?_intChars (n : Int) : readInt? (intChars n) = some n := by
  have digits := List.all_eq_true.1 (all_isDigit_natChars n.natAbs)
  rw [intChars]
  split
  · have back : -(n.natAbs : Int) = n := by omega
    simp only [readInt?, readDigits?_natChars, Option.pure_def, Option.bind_eq_bind,
      Option.bind_some, Option.map_some, back]
  · have back : (n.natAbs : Int) = n := by omega
    rw [readInt?_of_digits (natChars_ne_nil _) digits, digitsValue_natChars, back]

theorem readIntBelow?_of_digits {bound : Nat} {cs : List Char} (ne_nil : cs ≠ [])
    (digits : ∀ c ∈ cs, c.isDigit = true) (small : digitsValue cs < bound) :
    readIntBelow? bound cs = some (digitsValue cs : Int) := by
  have inRange : -(bound : Int) ≤ digitsValue cs ∧ (digitsValue cs : Int) < bound := by omega
  rw [readIntBelow?, readInt?_of_digits ne_nil digits, Option.filter_some, if_pos]
  simpa using inRange

theorem readIntBelow?_natChars {bound n : Nat} (small : n < bound) :
    readIntBelow? bound (natChars n) = some (n : Int) := by
  have digits := List.all_eq_true.1 (all_isDigit_natChars n)
  have whole := readIntBelow?_of_digits (natChars_ne_nil n) digits
    ((digitsValue_natChars n).symm ▸ small)
  rwa [digitsValue_natChars] at whole

end Text

open Text

/-- The number at the start of a written word is that word. -/
theorem leadingInt_intText (n : Int32) : leadingInt (intText n.toInt) = n := by
  obtain ⟨c, rest, whole, sign, digits⟩ := exists_intChars_eq_cons n.toInt
  have trimmed : trimChars (intChars n.toInt) = c :: rest := by
    rw [trimChars_eq_self fun _ => isBlank_eq_false_of_mem_intChars, whole]
  have starts : (c.isDigit || c == '-' || c == '+') = true := by
    rcases sign with digit | rfl
    · rw [digit]
      rfl
    · decide
  have run : c :: rest.takeWhile Char.isDigit = intChars n.toInt := by
    rw [whole, List.takeWhile_eq_self_iff.2 digits]
  have lower := n.le_toInt
  have upper := n.toInt_lt
  have fits : readIntBelow? WordBound.signed32 (intChars n.toInt) = some n.toInt := by
    rw [readIntBelow?, readInt?_intChars, Option.filter_some, if_pos]
    have inRange : -(WordBound.signed32 : Int) ≤ n.toInt ∧ n.toInt < WordBound.signed32 := by
      rw [WordBound.signed32]
      omega
    simpa using inRange
  simp only [leadingInt, intText, String.toList_ofList, trimmed, starts, if_true, run, fits,
    Option.getD_some, Int32.ofInt_toInt]

namespace Sexpr

@[simp] theorem toInt_ofInt (n : Int32) : (ofInt n).toInt = n := leadingInt_intText n

theorem isBare_intText (n : Int) : IsBare (intText n).toList := by
  have ne_nil : intChars n ≠ [] := by
    obtain ⟨c, rest, whole, -⟩ := exists_intChars_eq_cons n
    rw [whole]
    exact List.cons_ne_nil c rest
  have plain : ∀ c ∈ intChars n, (!isDelimiter c && c != '/') = true := by
    intro c hc
    have notBlank := isBlank_eq_false_of_mem_intChars hc
    rcases isDigit_or_minus_of_mem_intChars hc with digit | rfl
    · have other : c ≠ '(' ∧ c ≠ ')' ∧ c ≠ '"' ∧ c ≠ '/' := by
        refine ⟨?_, ?_, ?_, ?_⟩ <;> rintro rfl <;> cases digit
      simp [isDelimiter, notBlank, other]
    · decide
  rw [intText, String.toList_ofList]
  refine isBare_of_isWord ?_
  rw [isWord, List.isEmpty_eq_false_iff.2 ne_nil, List.all_eq_true.2 plain]
  rfl

end Sexpr

end BlockSchematic
