import BlockSchematic.Decimal.Exact
import BlockSchematic.Text.Number
import BlockSchematic.Text.Pieces
import BlockSchematic.WordBound

/-!
# Words, numbers and texts of JSON

What reading finds wrong is one of three things: the text is no JSON, it ended too early, or it is
JSON of another shape than was asked for. A number keeps at most 64 bits of its digits; a double
is those digits times or divided by one power of ten.
-/

namespace BlockSchematic.Json

inductive Fault where
  | malformed
  | ended
  | mismatch
  deriving DecidableEq, Repr

/-- The name of a kind of fault. -/
def Fault.category : Fault → String
  | .malformed => "syntax"
  | .ended => "eof"
  | .mismatch => "data"

def isSpace (c : Char) : Bool := c == ' ' || c == '\n' || c == '\t' || c == '\r'

def skipSpaces (cs : List Char) : List Char := cs.dropWhile isSpace

/-- The text after a word that has to stand there. -/
def expectWord : List Char → List Char → Except Fault (List Char)
  | [], cs => .ok cs
  | _ :: _, [] => .error .ended
  | w :: word, c :: cs => if c = w then expectWord word cs else .error .malformed

/-! ## Numbers -/

inductive Number where
  /-- A whole number below `2 ^ 64`. -/
  | natural (n : Nat)
  /-- The negative of a number up to `2 ^ 63`. -/
  | negative (n : Nat)
  | double (x : Float)

/-- Takes up digits as long as the number stays within a limit, and counts them. -/
def accumulate (limit : Nat) (value count : Nat) : List Char → Nat × Nat × List Char
  | [] => (value, count, [])
  | c :: rest =>
    let next := value * 10 + (c.toNat - '0'.toNat)
    if c.isDigit && next ≤ limit then accumulate limit next (count + 1) rest
    else (value, count, c :: rest)

def startsWithDigit (cs : List Char) : Bool := cs.head?.any Char.isDigit

def startsWithExponent (cs : List Char) : Bool := cs.head?.any fun c => c == 'e' || c == 'E'

def powerOfTen (n : Nat) : Float := Decimal.nearest 1 n

/-- `f * 10 ^ e`, in one multiplication or division where the power is a double. -/
def scaleByTens (f : Float) (e : Int) : Except Fault Float :=
  if 308 < e then if f == 0.0 then .ok f else .error .malformed
  else if 0 ≤ e then
    let scaled := f * powerOfTen e.toNat
    if scaled.isInf then .error .malformed else .ok scaled
  else if -308 ≤ e then .ok (f / powerOfTen (-e).toNat)
  else if f == 0.0 then .ok f
  else scaleByTens (f / powerOfTen 308) (e + 308)
  termination_by e.natAbs

def makeDouble (minus : Bool) (digits : Nat) (e : Int) : Except Fault Number :=
  (scaleByTens (UInt64.ofNat digits).toFloat e).map fun x => .double (Decimal.signed minus x)

/-- Reads the digits of an exponent, after its sign. -/
def readShift (minus : Bool) (digits : Nat) (e : Int) (down : Bool) (cs : List Char) :
    Except Fault (Number × List Char) :=
  match cs with
  | [] => .error .ended
  | c :: _ =>
    if !c.isDigit then .error .malformed
    else
      let (shift, _, rest) := accumulate (WordBound.signed32 - 1) 0 0 cs
      if startsWithDigit rest then
        if digits ≠ 0 && !down then .error .malformed
        else .ok (.double (Decimal.signed minus 0.0), rest.dropWhile Char.isDigit)
      else
        (makeDouble minus digits (if down then e - shift else e + shift)).map (·, rest)

/-- Reads what follows the mark of an exponent. -/
def readExponent (minus : Bool) (digits : Nat) (e : Int) (cs : List Char) :
    Except Fault (Number × List Char) :=
  match cs with
  | '+' :: rest => readShift minus digits e false rest
  | '-' :: rest => readShift minus digits e true rest
  | _ => readShift minus digits e false cs

/-- Reads what follows the mantissa of a double. -/
def readScale (minus : Bool) (digits : Nat) (e : Int) (cs : List Char) :
    Except Fault (Number × List Char) :=
  match cs with
  | c :: rest =>
    if c = 'e' ∨ c = 'E' then readExponent minus digits e rest
    else (makeDouble minus digits e).map (·, cs)
  | [] => (makeDouble minus digits e).map (·, cs)

/-- Reads what follows the decimal point. Digits beyond 64 bits do not count. -/
def readFraction (minus : Bool) (digits : Nat) (e : Int) (cs : List Char) :
    Except Fault (Number × List Char) :=
  let (digits, count, rest) := accumulate (WordBound.unsigned64 - 1) digits 0 cs
  if startsWithDigit rest then
    readScale minus digits (e - count) (rest.dropWhile Char.isDigit)
  else if count = 0 then if rest.isEmpty then .error .ended else .error .malformed
  else readScale minus digits (e - count) rest

/-- A whole number without point and exponent. The negative of zero and of what is below the
least word of 64 bits are doubles. -/
def wholeNumber (minus : Bool) (digits : Nat) : Number :=
  if !minus then .natural digits
  else if 0 < digits ∧ digits ≤ WordBound.signed64 then .negative digits
  else .double (-(UInt64.ofNat digits).toFloat)

/-- Reads what follows the digits before the point. -/
def afterWhole (minus : Bool) (digits : Nat) (cs : List Char) :
    Except Fault (Number × List Char) :=
  match cs with
  | '.' :: rest => readFraction minus digits 0 rest
  | _ =>
    if startsWithExponent cs then readScale minus digits 0 cs
    else .ok (wholeNumber minus digits, cs)

/-- Reads a number of which 64 bits hold only the first digits; the others count as zeros. -/
def afterLong (minus : Bool) (digits : Nat) (cs : List Char) :
    Except Fault (Number × List Char) :=
  let dropped : Int := (cs.takeWhile Char.isDigit).length
  match cs.dropWhile Char.isDigit with
  | '.' :: rest => readFraction minus digits dropped rest
  | rest => readScale minus digits dropped rest

def readUnsigned (minus : Bool) (cs : List Char) : Except Fault (Number × List Char) :=
  match cs with
  | [] => .error .ended
  | c :: rest =>
    if c = '0' then
      if startsWithDigit rest then .error .malformed else afterWhole minus 0 rest
    else if c.isDigit then
      let (digits, _, rest) := accumulate (WordBound.unsigned64 - 1) 0 0 cs
      if startsWithDigit rest then afterLong minus digits rest else afterWhole minus digits rest
    else .error .malformed

def startsNumber (c : Char) : Bool := c == '-' || c.isDigit

def readNumber (cs : List Char) : Except Fault (Number × List Char) :=
  match cs with
  | '-' :: rest => readUnsigned true rest
  | _ => readUnsigned false cs

/-! ## Texts -/

def hexValue? (c : Char) : Option Nat :=
  if c.isDigit then some (c.toNat - '0'.toNat)
  else if 'a' ≤ c ∧ c ≤ 'f' then some (c.toNat - 'a'.toNat + 10)
  else if 'A' ≤ c ∧ c ≤ 'F' then some (c.toNat - 'A'.toNat + 10)
  else none

/-- The value of four hexadecimal digits. The text has ended if it has less than four bytes. -/
def readHex : List Char → Except Fault Nat
  | a :: b :: c :: d :: _ =>
    match hexValue? a, hexValue? b, hexValue? c, hexValue? d with
    | some a, some b, some c, some d => .ok (((a * 16 + b) * 16 + c) * 16 + d)
    | _, _, _, _ => .error .malformed
  | cs => if Text.utf8Size cs < 4 then .error .ended else .error .malformed

def isHighSurrogate (n : Nat) : Bool := 0xD800 ≤ n && n ≤ 0xDBFF

def isLowSurrogate (n : Nat) : Bool := 0xDC00 ≤ n && n ≤ 0xDFFF

/-- The second half of a pair of surrogates. -/
def readLowSurrogate : List Char → Except Fault Nat
  | [] => .error .ended
  | '\\' :: [] => .error .ended
  | '\\' :: 'u' :: rest => do
    let n ← readHex rest
    if isLowSurrogate n then .ok n else .error .malformed
  | _ => .error .malformed

/-- The character of an escape in hexadecimal digits, and how many characters it takes. -/
def readUnicode (cs : List Char) : Except Fault (Char × Nat) := do
  let n ← readHex cs
  if isLowSurrogate n then .error .malformed
  else if isHighSurrogate n then
    let low ← readLowSurrogate (cs.drop 4)
    .ok (Char.ofNat (0x10000 + (n - 0xD800) * 0x400 + (low - 0xDC00)), 10)
  else .ok (Char.ofNat n, 4)

def simpleEscape? (c : Char) : Option Char :=
  match c with
  | '"' => some '"'
  | '\\' => some '\\'
  | '/' => some '/'
  | 'b' => some '\x08'
  | 'f' => some '\x0c'
  | 'n' => some '\n'
  | 'r' => some '\r'
  | 't' => some '\t'
  | _ => none

/-- An escape after its backslash, and how many characters it takes. -/
def readEscape (cs : List Char) : Except Fault (Char × Nat) :=
  match cs with
  | [] => .error .ended
  | 'u' :: rest => (readUnicode rest).map fun (c, n) => (c, n + 1)
  | c :: _ =>
    match simpleEscape? c with
    | some d => .ok (d, 1)
    | none => .error .malformed

/-- Reads a text from after its opening quote to its closing one. -/
def readText (cs : List Char) : Except Fault (List Char × List Char) :=
  match cs with
  | [] => .error .ended
  | c :: rest =>
    if c = '"' then .ok ([], rest)
    else if c = '\\' then
      match readEscape rest with
      | .error f => .error f
      | .ok (d, n) => (readText (rest.drop n)).map fun (chars, after) => (d :: chars, after)
    else if c.toNat < 0x20 then .error .malformed
    else (readText rest).map fun (chars, after) => (c :: chars, after)
  termination_by cs.length
  decreasing_by all_goals simp only [List.length_drop, List.length_cons]; omega

/-- What is wrong with a value that has another shape than was asked for: a fault inside it comes
first. -/
def wrongShape : List Char → Fault
  | [] => .ended
  | c :: rest =>
    let inside : Except Fault Unit :=
      if c = 'n' then (expectWord "ull".toList rest).map fun _ => ()
      else if c = 't' then (expectWord "rue".toList rest).map fun _ => ()
      else if c = 'f' then (expectWord "alse".toList rest).map fun _ => ()
      else if startsNumber c then (readNumber (c :: rest)).map fun _ => ()
      else if c = '"' then (readText rest).map fun _ => ()
      else if c = '[' ∨ c = '\x7b' then .ok ()
      else .error .malformed
    match inside with
    | .ok () => .mismatch
    | .error f => f

end BlockSchematic.Json
