/-!
# Whole numbers in text

A whole number is read from a non-empty run of ASCII digits, with a sign in front where one is
allowed. Writing goes through `Nat.toDigits`, so that what is written reads back.
-/

namespace BlockSchematic.Text

def natChars (n : Nat) : List Char := Nat.toDigits 10 n

def intChars (n : Int) : List Char :=
  if n < 0 then '-' :: natChars n.natAbs else natChars n.natAbs

def natText (n : Nat) : String := String.ofList (natChars n)

def intText (n : Int) : String := String.ofList (intChars n)

def digitsValue (cs : List Char) : Nat := Nat.ofDigitChars 10 cs 0

def readDigits? (cs : List Char) : Option Nat :=
  if !cs.isEmpty && cs.all Char.isDigit then some (digitsValue cs) else none

def readNat? : List Char → Option Nat
  | '+' :: rest => readDigits? rest
  | cs => readDigits? cs

def readInt? : List Char → Option Int
  | '-' :: rest => (readDigits? rest).map fun n => -(n : Int)
  | '+' :: rest => (readDigits? rest).map fun n => (n : Int)
  | cs => (readDigits? cs).map fun n => (n : Int)

def readNatBelow? (bound : Nat) (cs : List Char) : Option Nat :=
  (readNat? cs).filter (· < bound)

/-- A whole number below a bound and at least the bound's negative. -/
def readIntBelow? (bound : Nat) (cs : List Char) : Option Int :=
  (readInt? cs).filter fun n => -(bound : Int) ≤ n && n < (bound : Int)

theorem all_isDigit_natChars (n : Nat) : (natChars n).all Char.isDigit = true := by
  rw [List.all_eq_true]
  intro c hc
  exact Nat.isDigit_of_mem_toDigits (by decide) (by decide) hc

theorem natChars_ne_nil (n : Nat) : natChars n ≠ [] := Nat.toDigits_ne_nil

@[simp] theorem digitsValue_natChars (n : Nat) : digitsValue (natChars n) = n :=
  Nat.ofDigitChars_ten_toDigits

@[simp] theorem readDigits?_natChars (n : Nat) : readDigits? (natChars n) = some n := by
  simp [readDigits?, natChars_ne_nil, all_isDigit_natChars]

theorem natChars_injective {m n : Nat} (h : natChars m = natChars n) : m = n := by
  have := congrArg digitsValue h
  simpa using this

theorem isDigit_of_mem_natChars {c : Char} {n : Nat} (h : c ∈ natChars n) : c.isDigit = true :=
  List.all_eq_true.1 (all_isDigit_natChars n) c h

/-- The digits at the end of a text are told from what stands before them. -/
theorem append_natChars_inj {mark : Char} (other : mark.isDigit = false)
    {before before' : List Char} {m n : Nat}
    (h : before ++ mark :: natChars m = before' ++ mark :: natChars n) :
    before = before' ∧ m = n := by
  have digits : ∀ (cs : List Char) (k : Nat),
      (cs ++ mark :: natChars k).reverse.takeWhile Char.isDigit = (natChars k).reverse := by
    intro cs k
    have all : ∀ c ∈ (natChars k).reverse, c.isDigit = true := fun c hc =>
      isDigit_of_mem_natChars (List.mem_reverse.1 hc)
    rw [List.reverse_append, List.reverse_cons, List.append_assoc,
      List.takeWhile_append_of_pos all]
    simp [other]
  have same := (digits before m).symm.trans ((congrArg _ (congrArg _ h)).trans (digits before' n))
  obtain rfl := natChars_injective (List.reverse_inj.1 same)
  exact ⟨List.append_cancel_right h, rfl⟩

end BlockSchematic.Text
