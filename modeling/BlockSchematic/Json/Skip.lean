import BlockSchematic.Json.Lexical

/-!
# Passing over a value

A value that nobody asked for only has to be JSON: its numbers may be of any size, and escapes
need not make up characters.
-/

namespace BlockSchematic.Json

/-- Passes over a text from after its opening quote. -/
def skipText (cs : List Char) : Except Fault (List Char) :=
  match cs with
  | [] => .error .ended
  | c :: rest =>
    if c = '"' then .ok rest
    else if c = '\\' then
      match rest with
      | [] => .error .ended
      | 'u' :: digits =>
        match readHex digits with
        | .error f => .error f
        | .ok _ => skipText (digits.drop 4)
      | d :: more => if (simpleEscape? d).isSome then skipText more else .error .malformed
    else if c.toNat < 0x20 then .error .malformed
    else skipText rest
  termination_by cs.length
  decreasing_by all_goals simp only [List.length_drop, List.length_cons]; omega

/-- Passes over at least one digit. -/
def skipDigits (cs : List Char) : Except Fault (List Char) :=
  if startsWithDigit cs then .ok (cs.dropWhile Char.isDigit) else .error .malformed

def skipExponent (cs : List Char) : Except Fault (List Char) :=
  match cs with
  | c :: rest =>
    if c = 'e' ∨ c = 'E' then
      match rest with
      | '+' :: digits => skipDigits digits
      | '-' :: digits => skipDigits digits
      | _ => skipDigits rest
    else .ok cs
  | [] => .ok []

def skipFraction (cs : List Char) : Except Fault (List Char) :=
  match cs with
  | '.' :: rest => do
    let rest ← skipDigits rest
    skipExponent rest
  | _ => skipExponent cs

/-- Passes over a number without its sign. -/
def skipUnsigned (cs : List Char) : Except Fault (List Char) :=
  match cs with
  | '0' :: rest => if startsWithDigit rest then .error .malformed else skipFraction rest
  | _ => do
    let rest ← skipDigits cs
    skipFraction rest

/-- Passes over the key and the colon of a member. -/
def skipKey (cs : List Char) : Except Fault (List Char) :=
  match skipSpaces cs with
  | [] => .error .ended
  | c :: rest =>
    if c ≠ '"' then .error .malformed
    else do
      let rest ← skipText rest
      match skipSpaces rest with
      | [] => .error .ended
      | ':' :: rest => .ok rest
      | _ => .error .malformed

mutual

/-- Passes over a value; `steps` bounds the number of values and brackets in it. -/
def skipWithin : Nat → List Char → Except Fault (List Char)
  | 0, _ => .error .ended
  | steps + 1, cs =>
    match skipSpaces cs with
    | [] => .error .ended
    | c :: rest =>
      if c = 'n' then expectWord "ull".toList rest
      else if c = 't' then expectWord "rue".toList rest
      else if c = 'f' then expectWord "alse".toList rest
      else if c = '-' then skipUnsigned rest
      else if c.isDigit then skipUnsigned (c :: rest)
      else if c = '"' then skipText rest
      else if c = '[' then skipItems steps true rest
      else if c = '\x7b' then skipMembers steps true rest
      else .error .malformed

/-- Passes over the items up to the closing bracket. -/
def skipItems : Nat → Bool → List Char → Except Fault (List Char)
  | 0, _, _ => .error .ended
  | steps + 1, first, cs =>
    match skipSpaces cs with
    | [] => .error .ended
    | c :: rest =>
      if c = ']' then .ok rest
      else if first then do
        let rest ← skipWithin steps (c :: rest)
        skipItems steps false rest
      else if c = ',' then do
        let rest ← skipWithin steps rest
        skipItems steps false rest
      else .error .malformed

/-- Passes over the members up to the closing brace. -/
def skipMembers : Nat → Bool → List Char → Except Fault (List Char)
  | 0, _, _ => .error .ended
  | steps + 1, first, cs =>
    match skipSpaces cs with
    | [] => .error .ended
    | c :: rest =>
      if c = '\x7d' then .ok rest
      else if first then do
        let rest ← skipKey (c :: rest)
        let rest ← skipWithin steps rest
        skipMembers steps false rest
      else if c = ',' then do
        let rest ← skipKey rest
        let rest ← skipWithin steps rest
        skipMembers steps false rest
      else .error .malformed

end

/-- Passes over a value. -/
def skipValue (cs : List Char) : Except Fault (List Char) := skipWithin (2 * cs.length + 2) cs

end BlockSchematic.Json
