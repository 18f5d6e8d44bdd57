import BlockSchematic.Json.Skip

/-!
# Decoding JSON

A decoder reads one value of a known shape from the start of a text and leaves the rest. The first
fault met decides. A record is an object, whose members may come in any order and among unknown
ones, or an array of its fields in order.
-/

namespace BlockSchematic.Json

abbrev Decoder (α : Type) := List Char → Except Fault (α × List Char)

namespace Decoder

variable {α β : Type}

def map (f : α → β) (d : Decoder α) : Decoder β := fun cs =>
  (d cs).map fun (a, rest) => (f a, rest)

/-- A number of an accepted kind. -/
def number (accept : Number → Option α) : Decoder α := fun cs =>
  match skipSpaces cs with
  | [] => .error .ended
  | c :: rest =>
    if startsNumber c then
      match readNumber (c :: rest) with
      | .error f => .error f
      | .ok (n, after) =>
        match accept n with
        | some a => .ok (a, after)
        | none => .error .mismatch
    else .error (wrongShape (c :: rest))

def natBelow (bound : Nat) : Decoder Nat :=
  number fun
    | .natural n => if n < bound then some n else none
    | _ => none

def word : Decoder UInt32 := (natBelow WordBound.unsigned32).map UInt32.ofNat

/-- An index is a word of 64 bits. -/
def index : Decoder Nat := natBelow WordBound.unsigned64

def signedWord : Decoder Int32 :=
  number fun
    | .natural n => if n < WordBound.signed32 then some (Int32.ofInt n) else none
    | .negative n => if n ≤ WordBound.signed32 then some (Int32.ofInt (-n)) else none
    | .double _ => none

/-- Whole numbers count as doubles too. -/
def double : Decoder Float :=
  number fun
    | .natural n => some (UInt64.ofNat n).toFloat
    | .negative n => some (-(UInt64.ofNat n).toFloat)
    | .double x => some x

def text : Decoder String := fun cs =>
  match skipSpaces cs with
  | [] => .error .ended
  | c :: rest =>
    if c = '"' then (readText rest).map fun (s, after) => (String.ofList s, after)
    else .error (wrongShape (c :: rest))

/-- The text after the colon of a member. -/
def colon (cs : List Char) : Except Fault (List Char) :=
  match skipSpaces cs with
  | [] => .error .ended
  | ':' :: rest => .ok rest
  | _ => .error .malformed

/-- The word null, where the shape asked for is nothing. -/
def null (cs : List Char) : Except Fault (List Char) :=
  match skipSpaces cs with
  | [] => .error .ended
  | 'n' :: rest => expectWord "ull".toList rest
  | cs => .error (wrongShape cs)

def optional (d : Decoder α) : Decoder (Option α) := fun cs =>
  match skipSpaces cs with
  | 'n' :: rest => (expectWord "ull".toList rest).map (none, ·)
  | cs => (d.map some) cs

/-- One of several names. A name may also be the only key of an object that holds null. -/
def choice (ofName? : String → Option α) : Decoder α := fun cs =>
  let name : Decoder α := fun cs =>
    match text cs with
    | .error f => .error f
    | .ok (s, rest) =>
      match ofName? s with
      | some a => .ok (a, rest)
      | none => .error .mismatch
  match skipSpaces cs with
  | [] => .error .ended
  | '"' :: rest => name ('"' :: rest)
  | '\x7b' :: rest => do
    let (a, rest) ← name rest
    let rest ← colon rest
    let rest ← null rest
    match skipSpaces rest with
    | [] => .error .ended
    | '\x7d' :: rest => .ok (a, rest)
    | _ => .error .malformed
  | _ => .error .malformed

/-! ## Arrays -/

/-- Goes on to the next item of an array, or to the bracket that closes it. -/
def nextItem (first : Bool) (cs : List Char) : Except Fault (Option (List Char)) :=
  match skipSpaces cs with
  | [] => .error .ended
  | c :: rest =>
    if c = ']' then .ok none
    else if first then .ok (some (c :: rest))
    else if c = ',' then
      match skipSpaces rest with
      | [] => .error .ended
      | ']' :: _ => .error .malformed
      | rest => .ok (some rest)
    else .error .malformed

/-- The text after the bracket that closes an array. -/
def closeArray (cs : List Char) : Except Fault (List Char) :=
  match skipSpaces cs with
  | [] => .error .ended
  | ']' :: rest => .ok rest
  | _ => .error .malformed

/-- Reads at most `steps` items, and the closing bracket. -/
def itemsWithin (d : Decoder α) : Nat → Bool → Decoder (List α)
  | 0, _, cs => (closeArray cs).map ([], ·)
  | steps + 1, first, cs => do
    match ← nextItem first cs with
    | none =>
      let rest ← closeArray cs
      return ([], rest)
    | some cs =>
      let (a, rest) ← d cs
      let (items, rest) ← itemsWithin d steps false rest
      return (a :: items, rest)

def list (d : Decoder α) : Decoder (List α) := fun cs =>
  match skipSpaces cs with
  | [] => .error .ended
  | '[' :: rest => itemsWithin d rest.length true rest
  | cs => .error (wrongShape cs)

/-! ## Objects -/

/-- Goes on to the text of the next key of an object, or to the brace that closes it. -/
def nextKey (first : Bool) (cs : List Char) : Except Fault (Option (List Char)) :=
  match skipSpaces cs with
  | [] => .error .ended
  | c :: rest =>
    if c = '\x7d' then .ok none
    else if first then if c = '"' then .ok (some rest) else .error .malformed
    else if c = ',' then
      match skipSpaces rest with
      | [] => .error .ended
      | '"' :: rest => .ok (some rest)
      | _ => .error .malformed
    else .error .malformed

/-- The text after the brace that closes an object. -/
def closeObject (cs : List Char) : Except Fault (List Char) :=
  match skipSpaces cs with
  | [] => .error .ended
  | '\x7d' :: rest => .ok rest
  | _ => .error .malformed

/-- Reads at most `steps` members, and the closing brace. -/
def membersWithin (d : Decoder α) : Nat → Bool → Decoder (List (String × α))
  | 0, _, cs => (closeObject cs).map ([], ·)
  | steps + 1, first, cs => do
    match ← nextKey first cs with
    | none =>
      let rest ← closeObject cs
      return ([], rest)
    | some cs =>
      let (key, rest) ← readText cs
      let rest ← colon rest
      let (a, rest) ← d rest
      let (members, rest) ← membersWithin d steps false rest
      return ((String.ofList key, a) :: members, rest)

/-- An object with any keys, its members in order. -/
def members (d : Decoder α) : Decoder (List (String × α)) := fun cs =>
  match skipSpaces cs with
  | [] => .error .ended
  | '\x7b' :: rest => membersWithin d rest.length true rest
  | cs => .error (wrongShape cs)

end Decoder

/-! ## Records -/

structure Field (α : Type) where
  name : String
  read : Decoder α
  /-- What a record without the field has in its place, if the field may be missing. -/
  absent : Option α

def Field.required {α : Type} (name : String) (read : Decoder α) : Field α := ⟨name, read, none⟩

def Field.defaulted {α : Type} (name : String) (read : Decoder α) (absent : α) : Field α :=
  ⟨name, read, some absent⟩

/-- The values of the fields of a record. -/
def Row : List Type → Type
  | [] => Unit
  | t :: ts => t × Row ts

/-- The values of those fields that were met so far. -/
def Slots : List Type → Type
  | [] => Unit
  | t :: ts => Option t × Slots ts

inductive Fields : List Type → Type 1 where
  | nil : Fields []
  | cons {t : Type} {ts : List Type} (field : Field t) (rest : Fields ts) : Fields (t :: ts)

namespace Fields

def noSlots : {ts : List Type} → Fields ts → Slots ts
  | _, .nil => ()
  | _, .cons _ rest => (none, rest.noSlots)

/-- Reads the member with the given key, if it is a field, from before its colon. -/
def fill (key : String) (cs : List Char) :
    {ts : List Type} → Fields ts → Slots ts → Option (Except Fault (Slots ts × List Char))
  | _, .nil, _ => none
  | _, .cons field rest, (slot, slots) =>
    if field.name = key then
      if slot.isSome then some (.error .mismatch)
      else some do
        let cs ← Decoder.colon cs
        let (a, after) ← field.read cs
        return ((some a, slots), after)
    else
      (rest.fill key cs slots).map fun result =>
        result.map fun (slots, after) => ((slot, slots), after)

/-- The record, once all members are read. -/
def finish : {ts : List Type} → Fields ts → Slots ts → Except Fault (Row ts)
  | _, .nil, _ => .ok ()
  | _, .cons field rest, (slot, slots) =>
    match slot.or field.absent with
    | none => .error .mismatch
    | some a => (rest.finish slots).map (a, ·)

/-- Reads at most `steps` members, and the closing brace. -/
def membersWithin {ts : List Type} (fields : Fields ts) :
    Nat → Bool → Slots ts → Decoder (Row ts)
  | 0, _, _, _ => .error .ended
  | steps + 1, first, slots, cs => do
    match ← Decoder.nextKey first cs with
    | none =>
      let row ← fields.finish slots
      let rest ← Decoder.closeObject cs
      return (row, rest)
    | some cs =>
      let (key, rest) ← readText cs
      match fields.fill (String.ofList key) rest slots with
      | some filled =>
        let (slots, rest) ← filled
        fields.membersWithin steps false slots rest
      | none =>
        let rest ← Decoder.colon rest
        let rest ← skipValue rest
        fields.membersWithin steps false slots rest

/-- Reads the fields in order as the items of an array. -/
def items : {ts : List Type} → Fields ts → Bool → Decoder (Row ts)
  | _, .nil, _, cs => (Decoder.closeArray cs).map ((), ·)
  | _, .cons field rest, first, cs =>
    match Decoder.nextItem first cs with
    | .error f => .error f
    | .ok none =>
      match field.absent with
      | none => .error .mismatch
      | some a => (rest.items first cs).map fun (row, after) => ((a, row), after)
    | .ok (some cs) =>
      match field.read cs with
      | .error f => .error f
      | .ok (a, cs) => (rest.items false cs).map fun (row, after) => ((a, row), after)

def decoder {ts : List Type} (fields : Fields ts) : Decoder (Row ts) := fun cs =>
  match skipSpaces cs with
  | [] => .error .ended
  | '\x7b' :: rest => fields.membersWithin (rest.length + 1) true fields.noSlots rest
  | '[' :: rest => fields.items true rest
  | cs => .error (wrongShape cs)

end Fields

/-- Decodes a whole text that holds one value and nothing else. -/
def decodeText {α : Type} (d : Decoder α) (s : String) : Except Fault α := do
  let (a, rest) ← d s.toList
  if (skipSpaces rest).isEmpty then .ok a else .error .malformed

end BlockSchematic.Json
