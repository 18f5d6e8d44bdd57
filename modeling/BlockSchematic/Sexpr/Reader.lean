import BlockSchematic.Sexpr.Token

/-!
# Reading symbolic expressions

Trees are built on a stack of open lists. A fault inside a tree uses up the rest of the text,
except a closing parenthesis without a list: the reader stays in front of it.
-/

namespace BlockSchematic.Sexpr

/-- Why no tree could be read. Offsets count bytes. -/
inductive ReadError where
  | unexpectedEnd
  | unexpectedClose (offset : Nat)
  | unclosedList (offset : Nat)
  | unterminatedString (offset : Nat)
  deriving DecidableEq, Repr

def ReadError.message : ReadError → String
  | .unexpectedEnd => "Unexpected end of input"
  | .unexpectedClose offset => s!"Unmatched ')' at byte {offset}"
  | .unclosedList offset => s!"Unclosed list opened at byte {offset}"
  | .unterminatedString offset => s!"Unterminated string starting at byte {offset}"

/-- A list that is still open, its items so far newest first. -/
structure OpenList where
  start : Nat
  newest : List Sexpr

def OpenList.add (l : OpenList) (e : Sexpr) : OpenList := ⟨l.start, e :: l.newest⟩

def OpenList.close (l : OpenList) : Sexpr := .list l.newest.reverse

/-- Reads one tree. The stack holds the lists open so far, innermost first. -/
def readTree : List OpenList → List Lexeme → Except ReadError Sexpr × List Lexeme
  | [], [] => (.error .unexpectedEnd, [])
  | inner :: _, [] => (.error (.unclosedList inner.start), [])
  | stack, ⟨start, .opening⟩ :: rest => readTree (⟨start, []⟩ :: stack) rest
  | [], ⟨start, .closing⟩ :: rest =>
    (.error (.unexpectedClose start), ⟨start, .closing⟩ :: rest)
  | [inner], ⟨_, .closing⟩ :: rest => (.ok inner.close, rest)
  | inner :: outer :: stack, ⟨_, .closing⟩ :: rest =>
    readTree (outer.add inner.close :: stack) rest
  | [], ⟨_, .atom s⟩ :: rest => (.ok (.atom s), rest)
  | inner :: stack, ⟨_, .atom s⟩ :: rest => readTree (inner.add (.atom s) :: stack) rest
  | [], ⟨_, .quoted s⟩ :: rest => (.ok (.quoted s), rest)
  | inner :: stack, ⟨_, .quoted s⟩ :: rest => readTree (inner.add (.quoted s) :: stack) rest
  | _, ⟨start, .dangling⟩ :: _ => (.error (.unterminatedString start), [])

theorem length_readTree_lt {stack : List OpenList} {input : List Lexeme} {e : Sexpr}
    (h : (readTree stack input).1 = .ok e) : (readTree stack input).2.length < input.length := by
  fun_induction readTree stack input <;> simp_all <;> omega

/-- Reads trees to the end of the text. -/
def readForest (input : List Lexeme) : Except ReadError (List Sexpr) :=
  if input.isEmpty then .ok []
  else
    match h : (readTree [] input).1 with
    | .error e => .error e
    | .ok e =>
      have := length_readTree_lt h
      (readForest (readTree [] input).2).map (e :: ·)
  termination_by input.length

/-- A reader in the middle of a text. -/
structure Reader where
  pending : List Lexeme

def Reader.ofText (text : String) : Reader := ⟨lexemes text⟩

def Reader.next (r : Reader) : Except ReadError Sexpr × Reader :=
  let (result, rest) := readTree [] r.pending
  (result, ⟨rest⟩)

/-- What the first `n` readings give, one after the other. -/
def Reader.results : Nat → Reader → List (Except ReadError Sexpr)
  | 0, _ => []
  | n + 1, r => r.next.1 :: Reader.results n r.next.2

/-- The first tree of a text. -/
def parse (text : String) : Except ReadError Sexpr := (Reader.ofText text).next.1

/-- All trees of a text. -/
def parseAll (text : String) : Except ReadError (List Sexpr) := readForest (lexemes text)

end BlockSchematic.Sexpr
