import BlockSchematic.Decimal.Layout

/-!
# JSON values and their written form

A value is written with each item and member on a line of its own, two spaces deeper than the
brackets around it; empty brackets stand together. In a text, quotes, backslashes and control
characters are escaped and everything else stands for itself.
-/

namespace BlockSchematic

inductive Json where
  | null
  | integer (n : Int)
  | double (x : Float)
  | text (s : String)
  | array (items : List Json)
  | object (members : List (String × Json))

namespace Json

def escapeChar (c : Char) : List Char :=
  if c = '"' then ['\\', '"']
  else if c = '\\' then ['\\', '\\']
  else if 0x20 ≤ c.toNat then [c]
  else if c.toNat = 0x08 then ['\\', 'b']
  else if c.toNat = 0x09 then ['\\', 't']
  else if c.toNat = 0x0A then ['\\', 'n']
  else if c.toNat = 0x0C then ['\\', 'f']
  else if c.toNat = 0x0D then ['\\', 'r']
  else ['\\', 'u', '0', '0', (c.toNat / 16).digitChar, (c.toNat % 16).digitChar]

def textChars (s : String) : List Char := '"' :: (s.toList.flatMap escapeChar ++ ['"'])

def doubleChars (x : Float) : List Char := Decimal.documentLayout.chars x

def newLine (depth : Nat) : List Char := '\n' :: List.replicate (2 * depth) ' '

mutual

/-- A value whose first line stands `depth` levels deep. -/
def prettyChars (depth : Nat) : Json → List Char
  | .null => ['n', 'u', 'l', 'l']
  | .integer n => Text.intChars n
  | .double x => doubleChars x
  | .text s => textChars s
  | .array [] => ['[', ']']
  | .array (first :: rest) =>
    '[' :: (newLine (depth + 1) ++ prettyChars (depth + 1) first ++ prettyItems depth rest ++
      newLine depth ++ [']'])
  | .object [] => ['\x7b', '\x7d']
  | .object ((key, first) :: rest) =>
    '\x7b' :: (newLine (depth + 1) ++ textChars key ++ ':' :: ' ' ::
      prettyChars (depth + 1) first ++ prettyMembers depth rest ++ newLine depth ++ ['\x7d'])

def prettyItems (depth : Nat) : List Json → List Char
  | [] => []
  | v :: rest =>
    ',' :: (newLine (depth + 1) ++ prettyChars (depth + 1) v ++ prettyItems depth rest)

def prettyMembers (depth : Nat) : List (String × Json) → List Char
  | [] => []
  | (key, v) :: rest =>
    ',' :: (newLine (depth + 1) ++ textChars key ++ ':' :: ' ' :: prettyChars (depth + 1) v ++
      prettyMembers depth rest)

end

def pretty (v : Json) : String := String.ofList (prettyChars 0 v)

end Json

end BlockSchematic
