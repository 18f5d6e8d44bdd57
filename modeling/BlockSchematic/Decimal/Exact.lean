/-!
# Doubles as exact values

A double that is a number equals `mantissa * 2 ^ exponent` with a sign. The other direction takes
a quotient of whole numbers to the nearest double, a tie to the even one.
-/

namespace BlockSchematic.Decimal

inductive Exact where
  | nan
  | infinite (negative : Bool)
  | finite (negative : Bool) (mantissa : Nat) (exponent : Int)
  deriving DecidableEq

def twoTo (n : Nat) : Nat := Nat.pow 2 n

def tenTo (n : Nat) : Nat := Nat.pow 10 n

/-- The exponent of the smallest positive double. -/
def leastExponent : Int := -1074

def Exact.ofBits (bits : Nat) : Exact :=
  let negative := decide (twoTo 63 ≤ bits)
  let field : Nat := bits / twoTo 52 % twoTo 11
  let fraction : Nat := bits % twoTo 52
  if field = 2047 then
    if fraction = 0 then .infinite negative else .nan
  else if field = 0 then .finite negative fraction leastExponent
  else .finite negative (fraction + twoTo 52) ((field : Int) - 1075)

def Exact.ofFloat (x : Float) : Exact := Exact.ofBits x.toBits.toNat

def roundHalfEven (num den : Nat) : Nat :=
  let quotient := num / den
  let rest := num % den
  if 2 * rest < den ∨ (2 * rest = den ∧ quotient % 2 = 0) then quotient else quotient + 1

/-- The quotient `num / den` in units of `2 ^ e`, rounded. -/
def roundedUnits (num den : Nat) (e : Int) : Nat :=
  roundHalfEven (num * twoTo (-e).toNat) (den * twoTo e.toNat)

/-- The exponent at which the mantissa of `num / den` has 53 bits, or the least one. -/
def mantissaExponent (num den : Nat) : Int :=
  let e : Int := (num.log2 : Int) - den.log2 - 52
  let e := if num * twoTo (-e).toNat < twoTo 52 * (den * twoTo e.toNat) then e - 1 else e
  max e leastExponent

def infinityBits : Nat := 2047 * twoTo 52

/-- The bits of the double nearest to `num / den`. A carry out of the mantissa moves on to the
next exponent by itself. -/
def nearestBits (num den : Nat) : Nat :=
  if num = 0 then 0
  else
    let e := mantissaExponent num den
    min ((e - leastExponent).toNat * twoTo 52 + roundedUnits num den e) infinityBits

def signed (negative : Bool) (x : Float) : Float := if negative then -x else x

/-- The double nearest to `digits * 10 ^ exponent`. Powers of ten far outside the range of doubles
are settled without being computed. -/
def nearest (digits : Nat) (exponent : Int) : Float :=
  let size : Int := (Nat.toDigits 10 digits).length
  let bits :=
    if digits = 0 ∨ size + exponent < -400 then 0
    else if 400 < exponent then infinityBits
    else nearestBits (digits * tenTo exponent.toNat) (tenTo (-exponent).toNat)
  Float.ofBits (UInt64.ofNat bits)

theorem roundHalfEven_le (num den : Nat) : roundHalfEven num den ≤ num / den + 1 := by
  unfold roundHalfEven
  dsimp only
  split <;> omega

theorem le_roundHalfEven (num den : Nat) : num / den ≤ roundHalfEven num den := by
  unfold roundHalfEven
  dsimp only
  split <;> omega

end BlockSchematic.Decimal
