/-!
# Substitution in code fragments

A fragment is cut into pieces: words, which may be replaced, and everything else, which is copied.
Comments, string and character literals and numbers are pieces of their own, and the letter in
front of a bit string belongs to what is copied.
-/

namespace BlockSchematic.Vhdl

inductive Piece where
  | verbatim (chars : List Char)
  | word (chars : List Char)
  deriving DecidableEq, Repr

def Piece.chars : Piece → List Char
  | .verbatim cs => cs
  | .word cs => cs

def isWordStart (c : Char) : Bool := c.isAlpha || c == '_'

def isWordChar (c : Char) : Bool := c.isAlphanum || c == '_'

def isNumberChar (c : Char) : Bool := c.isAlphanum || c == '_' || c == '#' || c == '.'

def isBitStringLetter (word : List Char) : Bool :=
  [['b'], ['o'], ['x']].contains (word.map Char.toLower)

/-- The rest of a string literal with its closing quote, which may be missing. -/
def stringBody (cs : List Char) : List Char :=
  cs.takeWhile (· ≠ '"') ++ (cs.dropWhile (· ≠ '"')).take 1

/-- How many characters after the first one the piece at the start of a text has, and whether it
may be replaced. -/
def pieceAt (c : Char) (rest : List Char) : Bool × Nat :=
  if c = '-' && rest.head? = some '-' then (false, (rest.takeWhile (· ≠ '\n')).length)
  else if c = '"' then (false, (stringBody rest).length)
  else if c = '\x27' && rest[1]? = some '\x27' then (false, 2)
  else if c.isDigit then (false, (rest.takeWhile isNumberChar).length)
  else if isWordStart c then
    let more := rest.takeWhile isWordChar
    let bitString := (rest.dropWhile isWordChar).head? = some '"' && isBitStringLetter (c :: more)
    (!bitString, more.length)
  else (false, 0)

/-- The pieces of a fragment, in order. -/
def pieces : List Char → List Piece
  | [] => []
  | c :: rest =>
    let (replaceable, n) := pieceAt c rest
    let chars := c :: rest.take n
    (if replaceable then .word chars else .verbatim chars) :: pieces (rest.drop n)
  termination_by cs => cs.length
  decreasing_by simp only [List.length_drop, List.length_cons]; omega

def Piece.replaced (replacement? : String → Option String) : Piece → List Char
  | .verbatim cs => cs
  | .word cs => ((replacement? (String.ofList cs)).map String.toList).getD cs

def substitute (replacement? : String → Option String) (code : String) : String :=
  String.ofList ((pieces code.toList).flatMap (·.replaced replacement?))

theorem flatMap_chars_pieces (cs : List Char) : (pieces cs).flatMap Piece.chars = cs := by
  fun_induction pieces cs with
  | case1 => rfl
  | case2 c rest replaceable n h chars ih =>
    rw [List.flatMap_cons, ih]
    have : chars = c :: rest.take n := rfl
    split <;> simp [Piece.chars, this]

end BlockSchematic.Vhdl
