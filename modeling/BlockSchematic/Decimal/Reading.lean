import BlockSchematic.Decimal.Exact
import BlockSchematic.Text.Number

/-!
# Reading a double

An optional sign, then a word for infinity or for what is no number, in any letter case, or
digits with an optional point and exponent; there is a digit before or after the point. The value
is the nearest double.
-/

namespace BlockSchematic.Decimal

/-- A leading sign, and whether it is a minus. -/
def spanSign : List Char → Bool × List Char
  | '-' :: rest => (true, rest)
  | '+' :: rest => (false, rest)
  | cs => (false, cs)

def spanDigits (cs : List Char) : List Char × List Char := cs.span Char.isDigit

/-- The text after the mantissa: nothing, or an exponent with at least one digit. -/
def readExponent? : List Char → Option Int
  | [] => some 0
  | mark :: rest =>
    if mark = 'e' ∨ mark = 'E' then
      let (negative, digits) := spanSign rest
      (Text.readDigits? digits).map fun n => if negative then -(n : Int) else n
    else none

def readUnsigned? (cs : List Char) : Option Float :=
  let word := String.ofList (cs.map Char.toLower)
  if word = "inf" ∨ word = "infinity" then some (Float.ofBits (UInt64.ofNat infinityBits))
  else if word = "nan" then some (Float.ofBits 0x7ff8000000000000)
  else
    let (whole, rest) := spanDigits cs
    let (fraction, rest) :=
      match rest with
      | '.' :: rest => spanDigits rest
      | _ => ([], rest)
    if whole.isEmpty && fraction.isEmpty then none
    else (readExponent? rest).map fun e =>
      nearest (Text.digitsValue (whole ++ fraction)) (e - fraction.length)

def readFloat? (cs : List Char) : Option Float :=
  let (negative, rest) := spanSign cs
  (readUnsigned? rest).map (signed negative)

end BlockSchematic.Decimal
