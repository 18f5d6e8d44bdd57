import BlockSchematic.Symbol.Basic
import BlockSchematic.Text.LowerCase
import BlockSchematic.Text.Number
import BlockSchematic.Text.Pieces
import BlockSchematic.WordBound

/-!
# Port labels

A bus is labelled `NAME[hi..0]`, a single line with its name alone. Reading a label accepts any
two bounds in the brackets; whatever is no such label names a single line.
-/

namespace BlockSchematic

/-- The width as a word, or 1 if it does not fit one. -/
def wordWidth (n : Nat) : UInt32 := if n < WordBound.unsigned32 then UInt32.ofNat n else 1

def busLabel (name : String) (width : UInt32) : String :=
  if 1 < width then
    String.ofList (name.toList ++ '[' :: Text.natChars (width.toNat - 1) ++ ['.', '.', '0', ']'])
  else name

/-- The two sides of the first `..`. -/
def splitDots? : List Char → Option (List Char × List Char)
  | '.' :: '.' :: rest => some ([], rest)
  | c :: rest => (splitDots? rest).map fun (before, after) => (c :: before, after)
  | [] => none

/-- The number of lines between two bounds in either order. -/
def rangeWidth (a b : Int) : UInt32 := wordWidth ((a - b).natAbs + 1)

/-- The width said in brackets, given the text after the opening one. -/
def bracketWidth? (cs : List Char) : Option UInt32 :=
  if cs.getLast? = some ']' then do
    let (high, low) ← splitDots? cs.dropLast
    let a ← Text.readIntBelow? WordBound.signed64 (Text.trimChars high)
    let b ← Text.readIntBelow? WordBound.signed64 (Text.trimChars low)
    return rangeWidth a b
  else none

def splitBusLabel (label : String) : String × UInt32 :=
  let cs := Text.trimChars label.toList
  let found := do
    let (before, after) ← Text.splitFirst? '[' cs
    let width ← bracketWidth? after
    return (String.ofList (Text.trimChars before), width)
  found.getD (String.ofList cs, 1)

/-- The name by which ports are matched: without brackets, trimmed and in lower case. -/
def baseName (name : String) : String :=
  Text.lowerCase (String.ofList (Text.trimChars (Text.beforeChar '[' name.toList)))

namespace Port

def isBus (p : Port) : Bool := 1 < p.width

def label (p : Port) : String :=
  match p.texts with
  | t :: _ => t.value
  | [] => busLabel p.name p.width

/-- Captions whose value is not in `seen`, the first of each value. -/
def distinctTexts (seen : List String) : List Caption → List Caption
  | [] => []
  | t :: rest =>
    if t.value ∈ seen then distinctTexts seen rest
    else t :: distinctTexts (t.value :: seen) rest

def displayTexts (p : Port) : List Caption := distinctTexts [] p.texts

end Port

end BlockSchematic
