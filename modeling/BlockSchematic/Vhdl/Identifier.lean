import BlockSchematic.Text.Pieces

/-!
# Basic identifiers

A name becomes a letter followed by letters, digits and single underscores. Text in brackets is
dropped, other characters become underscores, and what does not begin with a letter gets a `v_`
in front.
-/

namespace BlockSchematic.Vhdl

def isAsciiLetter (c : Char) : Bool := c.isAlpha

def isIdentifierChar (c : Char) : Bool := c.isAlphanum || c == '_'

/-- The name without the part from the first opening to the last closing bracket. -/
def withoutBrackets (cs : List Char) : List Char :=
  match Text.splitFirst? '[' cs with
  | none => cs
  | some (before, rest) =>
    match Text.splitLast? ']' rest with
    | none => cs
    | some (_, after) => before ++ after

def underscored (cs : List Char) : List Char :=
  cs.map fun c => if isIdentifierChar c then c else '_'

def startedByLetter (cs : List Char) : List Char :=
  match cs with
  | c :: _ => if isAsciiLetter c then cs else 'v' :: '_' :: cs
  | [] => ['v', '_']

/-- Runs of underscores shrink to one. -/
def collapsed : List Char → List Char
  | [] => []
  | c :: rest => if c = '_' && rest.head? = some '_' then collapsed rest else c :: collapsed rest

def withoutLastUnderscores (cs : List Char) : List Char :=
  (cs.reverse.dropWhile (· = '_')).reverse

def sanitizeChars (cs : List Char) : List Char :=
  withoutLastUnderscores (collapsed (startedByLetter (underscored (withoutBrackets cs))))

def sanitize (name : String) : String := String.ofList (sanitizeChars name.toList)

end BlockSchematic.Vhdl
