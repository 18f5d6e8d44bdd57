import BlockSchematic.Decimal.Exact

/-!
# The fewest digits that read back

Around a positive double lies the interval of the numbers that round to it; its ends belong to it
exactly when the mantissa is even. The decimal chosen is the one on the coarsest grid of powers of
ten that has a point in the interval, and of two such points the nearer.
-/

namespace BlockSchematic.Decimal

/-- What is taken when two decimals are equally near. -/
inductive Tie where
  | even
  | up
  deriving DecidableEq

/-- The interval around `mantissa * 2 ^ exponent`, in quarters of `2 ^ exponent`. -/
structure Interval where
  low : Nat
  middle : Nat
  high : Nat
  closed : Bool

/-- The lower half gap is halved where the doubles below lie closer together. -/
def Interval.around (mantissa : Nat) (exponent : Int) : Interval where
  low := 4 * mantissa - if mantissa = twoTo 52 ∧ leastExponent < exponent then 1 else 2
  middle := 4 * mantissa
  high := 4 * mantissa + 2
  closed := mantissa % 2 == 0

/-- Whole weights in which a point of the grid `10 ^ k` and a quarter of `2 ^ exponent` compare. -/
structure Scale where
  point : Nat
  quarter : Nat

def Scale.of (exponent k : Int) : Scale where
  point := tenTo k.toNat * twoTo (2 - exponent).toNat
  quarter := twoTo (exponent - 2).toNat * tenTo (-k).toNat

def Interval.holds (i : Interval) (s : Scale) (c : Nat) : Bool :=
  if i.closed then i.low * s.quarter ≤ c * s.point && c * s.point ≤ i.high * s.quarter
  else i.low * s.quarter < c * s.point && c * s.point < i.high * s.quarter

/-- The better of the two neighbours `c` and `c + 1` of the middle, if both lie in the interval. -/
def nearer (tie : Tie) (middle point c : Nat) : Nat :=
  let below := middle - c * point
  let above := (c + 1) * point - middle
  if below < above then c
  else if above < below then c + 1
  else match tie with
    | .even => if c % 2 = 0 then c else c + 1
    | .up => c + 1

def Interval.onGrid? (i : Interval) (tie : Tie) (s : Scale) : Option Nat :=
  let c := i.middle * s.quarter / s.point
  match i.holds s c, i.holds s (c + 1) with
  | true, true => some (nearer tie (i.middle * s.quarter) s.point c)
  | true, false => some c
  | false, true => some (c + 1)
  | false, false => none

/-- Goes to finer and finer grids, `steps` at most. -/
def searchGrids (i : Interval) (tie : Tie) (exponent : Int) : Nat → Int → Nat × Int
  | 0, k => (0, k)
  | steps + 1, k =>
    match i.onGrid? tie (Scale.of exponent k) with
    | some c => (c, k)
    | none => searchGrids i tie exponent steps (k - 1)

/-- Digits `d` and exponent `k` of the decimal `d * 10 ^ k` that stands for the double
`mantissa * 2 ^ exponent`. The first grid is coarser than the number itself. -/
def shortest (tie : Tie) (mantissa : Nat) (exponent : Int) : Nat × Int :=
  let size := ((mantissa.log2 : Int) + exponent) * 30103 / 100000 + 2
  searchGrids (.around mantissa exponent) tie exponent 24 size

end BlockSchematic.Decimal
