import BlockSchematic.Entity.Basic
import BlockSchematic.Symbol.Label
import BlockSchematic.Text.Word

/-!
# Reading entity declarations

Only the head `entity NAME is` and the port clause after it are looked for. Comments run from `--`
to the end of the line. Keywords are read in any letter case and must stand as whole words; a port
statement that does not begin with names, a colon and a mode is passed over.
-/

namespace BlockSchematic.Entity

/-- Letters that differ only in case fold to one; the long s and the Kelvin sign are letters of
the Latin alphabet here. -/
def foldLetter (c : Char) : Char :=
  if c = 'ſ' then 's' else if c.toNat = 0x212A then 'k' else c.toLower

/-- The text after a keyword. -/
def afterKeyword? : List Char → List Char → Option (List Char)
  | [], cs => some cs
  | _ :: _, [] => none
  | k :: keyword, c :: cs => if foldLetter c = k then afterKeyword? keyword cs else none

def startsWithWord (cs : List Char) : Bool := cs.head?.any Text.isWord

/-- The text after a keyword that no word character follows. -/
def afterWord? (keyword : String) (cs : List Char) : Option (List Char) :=
  (afterKeyword? keyword.toList cs).filter fun rest => !startsWithWord rest

/-- The text after one or more blanks. -/
def afterBlanks? : List Char → Option (List Char)
  | [] => none
  | c :: cs => if Text.isBlank c then some (Text.trimStart cs) else none

/-- A non-empty run of characters of a class, and the text after it. -/
def afterRun? (p : Char → Bool) (cs : List Char) : Option (List Char × List Char) :=
  let (run, rest) := cs.span p
  if run.isEmpty then none else some (run, rest)

/-- The first place where `read` succeeds and no word character stands right before. -/
def findAtWord? {α : Type} (read : List Char → Option α) (afterWordChar : Bool) :
    List Char → Option α
  | [] => none
  | c :: rest =>
    let here := if afterWordChar then none else read (c :: rest)
    here.or (findAtWord? read (Text.isWord c) rest)

/-- `entity NAME is`, and the text after it. -/
def head? (cs : List Char) : Option (List Char × List Char) := do
  let cs ← afterKeyword? "entity".toList cs
  let cs ← afterBlanks? cs
  let (name, cs) ← afterRun? Text.isWord cs
  let cs ← afterBlanks? cs
  let cs ← afterWord? "is" cs
  return (name, cs)

/-- The text after `port (`. -/
def portOpening? (cs : List Char) : Option (List Char) := do
  let cs ← afterKeyword? "port".toList cs
  match Text.trimStart cs with
  | '(' :: rest => some rest
  | _ => none

/-- The text up to the parenthesis that closes `depth + 1` open ones. -/
def balanced? : Nat → List Char → Option (List Char)
  | _, [] => none
  | depth, '(' :: rest => (balanced? (depth + 1) rest).map ('(' :: ·)
  | 0, ')' :: _ => some []
  | depth + 1, ')' :: rest => (balanced? depth rest).map (')' :: ·)
  | depth, c :: rest => (balanced? depth rest).map (c :: ·)

/-- A mode, and the type after it. -/
def modeAndType? (cs : List Char) : Option (PortMode × List Char) :=
  let cs := Text.trimStart cs
  [PortMode.inout, .input, .output, .buffer].findSome? fun mode =>
    (afterWord? mode.keyword cs).map fun rest => (mode, Text.trimStart rest)

/-- `( a downto b )` or `( a to b )`, its bounds as written. -/
def range? : List Char → Option (List Char × List Char)
  | '(' :: cs => do
    let (a, cs) ← afterRun? Text.isDecimalDigit (Text.trimStart cs)
    let cs ← afterBlanks? cs
    let cs ← (afterKeyword? "downto".toList cs).or (afterKeyword? "to".toList cs)
    let cs ← afterBlanks? cs
    let (b, cs) ← afterRun? Text.isDecimalDigit cs
    match Text.trimStart cs with
    | ')' :: _ => some (a, b)
    | _ => none
  | _ => none

def firstRange? : List Char → Option (List Char × List Char)
  | [] => none
  | c :: rest => (range? (c :: rest)).or (firstRange? rest)

/-- A type without a range, or with one that cannot be counted, is one line wide. -/
def typeWidth (cs : List Char) : UInt32 :=
  let width? := do
    let (a, b) ← firstRange? cs
    let a ← Text.readIntBelow? WordBound.signed64 a
    let b ← Text.readIntBelow? WordBound.signed64 b
    return rangeWidth a b
  width?.getD 1

/-- The ports of one statement. -/
def statementPorts (statement : List Char) : List PortSpec :=
  match Text.splitFirst? ':' statement with
  | none => []
  | some (names, rest) =>
    match modeAndType? rest with
    | none => []
    | some (mode, portType) =>
      let width := typeWidth (Text.upTo [':', '='] portType)
      let names := ((Text.splitOn ',' names).map Text.trimChars).filter (!·.isEmpty)
      names.map fun name => PortSpec.make (String.ofList name) mode width

def clausePorts (clause : List Char) : List PortSpec :=
  (((Text.splitOn ';' clause).map Text.trimChars).filter (!·.isEmpty)).flatMap statementPorts

/-- The source on one line, without comments and blank lines. -/
def withoutComments (cs : List Char) : List Char :=
  let lines := (Text.splitOn '\n' cs).map fun line => Text.trimChars (Text.upTo ['-', '-'] line)
  Text.join [' '] (lines.filter (!·.isEmpty))

/-- The entity a source declares first. Without a balanced port clause it has no ports. -/
def read? (source : String) : Option Entity := do
  let (name, body) ← findAtWord? head? false (withoutComments source.toList)
  let ports := do
    let opening ← findAtWord? portOpening? false body
    let clause ← balanced? 0 opening
    return clausePorts clause
  return ⟨String.ofList name, ports.getD []⟩

end BlockSchematic.Entity
