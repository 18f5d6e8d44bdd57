import BlockSchematic.Decimal.Shortest
import BlockSchematic.Text.Number

/-!
# The written form of a double

The digits are always the fewest that read back. A layout says where positional notation ends, if
a whole number keeps its point, and what stands for the values that are no numbers.
-/

namespace BlockSchematic.Decimal

structure Layout where
  tie : Tie
  /-- Decimal exponents from the first up to the second, exclusive, are written positionally; all
  of them if there are no limits. -/
  positional : Option (Int × Int)
  keepPoint : Bool
  nan : String
  infinity : String
  negativeInfinity : String

/-- Numbers of a saved document keep their point and turn to an exponent at `1e16`; what is no
number is written as `null`. -/
def documentLayout : Layout := ⟨.even, some (-5, 16), true, "null", "null", "null"⟩

/-- Numbers shown to people are written out in full. -/
def plainLayout : Layout := ⟨.up, none, false, "NaN", "inf", "-inf"⟩

def positionalChars (keepPoint : Bool) (digits : List Char) (k : Int) : List Char :=
  if 0 ≤ k then
    digits ++ List.replicate k.toNat '0' ++ (if keepPoint then ['.', '0'] else [])
  else
    let places := (-k).toNat
    if places < digits.length then
      digits.take (digits.length - places) ++ '.' :: digits.drop (digits.length - places)
    else '0' :: '.' :: List.replicate (places - digits.length) '0' ++ digits

def exponentChars (digits : List Char) (e : Int) : List Char :=
  let mantissa :=
    match digits with
    | [] => []
    | [d] => [d]
    | d :: rest => d :: '.' :: rest
  mantissa ++ 'e' :: (if e < 0 then '-' else '+') :: Text.natChars e.natAbs

/-- The decimal `digits * 10 ^ k`. -/
def Layout.decimalChars (l : Layout) (digits : List Char) (k : Int) : List Char :=
  let e := k + digits.length - 1
  match l.positional with
  | none => positionalChars l.keepPoint digits k
  | some (first, bound) =>
    if first ≤ e ∧ e < bound then positionalChars l.keepPoint digits k else exponentChars digits e

def Layout.exactChars (l : Layout) : Exact → List Char
  | .nan => l.nan.toList
  | .infinite true => l.negativeInfinity.toList
  | .infinite false => l.infinity.toList
  | .finite negative mantissa exponent =>
    let body :=
      if mantissa = 0 then positionalChars l.keepPoint ['0'] 0
      else
        let (digits, k) := shortest l.tie mantissa exponent
        l.decimalChars (Text.natChars digits) k
    if negative then '-' :: body else body

def Layout.chars (l : Layout) (x : Float) : List Char := l.exactChars (.ofFloat x)

def Layout.render (l : Layout) (x : Float) : String := String.ofList (l.chars x)

end BlockSchematic.Decimal
