import BlockSchematic.Command.Names
import BlockSchematic.Entity.Basic

/-!
# Argument lists

A command takes values at fixed places and named options. An option's value follows it as the next
argument or after an equals sign. A value is checked when the next argument is taken up or at the
end, so an argument that cannot be understood at all is reported first.
-/

namespace BlockSchematic

/-- Why an argument list is refused. A value that was refused comes with the reason. -/
inductive UsageError where
  | helpOnMissing
  | help
  | invalidSubcommand
  | unknownArgument
  | tooManyValues
  | missingValue
  | conflict
  | missingRequired
  | refusedValue (reason : String)
  deriving DecidableEq, Repr

def UsageError.kind : UsageError → String
  | .helpOnMissing => "DisplayHelpOnMissingArgumentOrSubcommand"
  | .help => "DisplayHelp"
  | .invalidSubcommand => "InvalidSubcommand"
  | .unknownArgument => "UnknownArgument"
  | .tooManyValues => "TooManyValues"
  | .missingValue => "InvalidValue"
  | .conflict => "ArgumentConflict"
  | .missingRequired => "MissingRequiredArgument"
  | .refusedValue _ => "ValueValidation"

def UsageError.detail? : UsageError → Option String
  | .refusedValue reason => some reason
  | _ => none

namespace Arguments

/-- What a value has to be. -/
inductive ValueKind where
  | text
  | path
  | position
  | port
  | number
  deriving DecidableEq, Repr

inductive Value where
  | flag
  | text (s : String)
  | position (p : Position)
  | port (p : PortSpec)
  | number (x : Float)

/-- A port written as name, mode and, if it is wider than one line, width. -/
def readPort (s : String) : Except String PortSpec :=
  match (Text.splitOn ':' s.toList).map String.ofList with
  | [] => .error s!"missing port name in '{s}'"
  | name :: rest =>
    if name = "" then .error s!"missing port name in '{s}'"
    else
      match rest.head?.bind PortMode.ofKeyword? with
      | none => .error s!"expected in, out, inout or buffer in '{s}'"
      | some mode =>
        match rest[1]? with
        | none => .ok (.make name mode 1)
        | some w =>
          match Text.readNatBelow? WordBound.unsigned32 w.toList with
          | some n => .ok (.make name mode (UInt32.ofNat n))
          | none => .error s!"bad width '{w}'"

def readNumber (s : String) : Except String Float :=
  match Decimal.readFloat? s.toList with
  | some x => .ok x
  | none =>
    .error (if s = "" then "cannot parse float from empty string" else "invalid float literal")

def readValue (kind : ValueKind) (s : String) : Except UsageError Value :=
  match kind with
  | .text => .ok (.text s)
  | .path => if s = "" then .error .missingValue else .ok (.text s)
  | .position =>
    match Position.parse s with
    | .ok p => .ok (.position p)
    | .error e => .error (.refusedValue e.message)
  | .port =>
    match readPort s with
    | .ok p => .ok (.port p)
    | .error e => .error (.refusedValue e)
  | .number =>
    match readNumber s with
    | .ok x => .ok (.number x)
    | .error e => .error (.refusedValue e)

/-- An argument of a command; without a kind it is a flag. -/
structure Argument where
  name : String
  kind : Option ValueKind
  short : Option Char
  repeatable : Bool
  required : Bool
  deriving DecidableEq, Repr

def Argument.place (name : String) (kind : ValueKind) : Argument :=
  ⟨name, some kind, none, false, true⟩

def Argument.option (name : String) (kind : ValueKind) : Argument :=
  ⟨name, some kind, none, false, false⟩

def Argument.flag (name : String) : Argument := ⟨name, none, none, false, false⟩

def outputOption : Argument := ⟨"output", some .path, some 'o', false, false⟩

structure Grammar where
  places : List Argument
  options : List Argument
  /-- Flags that exclude each other. -/
  excluding : List (String × String)

/-- The arguments read so far, those of one name in order. -/
abbrev Found := List (String × Value)

def Found.has (found : Found) (name : String) : Bool := found.any (·.1 == name)

/-- How far an argument list is read. The argument last met, with its value if it has one, is
checked later. -/
structure Progress where
  found : Found
  pending : Option (Argument × Option String)
  /-- The next argument is the value of the pending option. -/
  awaiting : Bool
  placed : Nat
  /-- Only places are left, whatever the arguments look like. -/
  trailing : Bool

def Progress.initial : Progress := ⟨[], none, false, 0, false⟩

namespace Progress

/-- Takes in an argument with its value. -/
def record (p : Progress) (a : Argument) (value : Option String) : Except UsageError Progress :=
  if a.kind.isSome && value.isNone then .error .missingValue
  else if !a.repeatable && p.found.has a.name then .error .conflict
  else
    match a.kind, value with
    | some kind, some s =>
      match readValue kind s with
      | .ok v => .ok { p with found := p.found ++ [(a.name, v)] }
      | .error e => .error e
    | _, _ => .ok { p with found := p.found ++ [(a.name, .flag)] }

/-- Takes in the pending argument. -/
def settle (p : Progress) : Except UsageError Progress :=
  let p' := { p with pending := none, awaiting := false }
  match p.pending with
  | none => .ok p'
  | some (a, value) => p'.record a value

/-- Takes up an option, with the value that is joined to it if there is one. -/
def takeOption (p : Progress) (a : Argument) (joined : Option String) :
    Except UsageError Progress :=
  match a.kind, joined with
  | none, some _ => .error .tooManyValues
  | some _, none => do
    let p ← p.settle
    return { p with pending := some (a, none), awaiting := true }
  | _, joined => do
    let p ← p.settle
    p.record a joined

def takeHelp (p : Progress) (joined : Option String) : Except UsageError Progress :=
  if joined.isSome then .error .tooManyValues
  else
    match p.settle with
    | .error e => .error e
    | .ok _ => .error .help

/-- The name and the joined value of what stands behind two dashes. -/
def splitJoined (cs : List Char) : String × Option String :=
  match Text.splitFirst? '=' cs with
  | some (name, value) => (String.ofList name, some (String.ofList value))
  | none => (String.ofList cs, none)

def takeLong (g : Grammar) (p : Progress) (cs : List Char) : Except UsageError Progress :=
  let (name, joined) := splitJoined cs
  if name = "help" then p.takeHelp joined
  else
    match g.options.find? (·.name = name) with
    | some a => p.takeOption a joined
    | none => .error .unknownArgument

/-- What is joined to a short option; an equals sign in between does not count. -/
def joinedToShort : List Char → Option String
  | [] => none
  | '=' :: rest => some (String.ofList rest)
  | cs => some (String.ofList cs)

def takeShort (g : Grammar) (p : Progress) (c : Char) (rest : List Char) :
    Except UsageError Progress :=
  if c = 'h' then p.takeHelp none
  else
    match g.options.find? (·.short = some c) with
    | some a => p.takeOption a (joinedToShort rest)
    | none => .error .unknownArgument

def takePlace (g : Grammar) (p : Progress) (s : String) : Except UsageError Progress :=
  match g.places[p.placed]? with
  | none => .error .unknownArgument
  | some a => do
    let p ← p.settle
    return { p with pending := some (a, some s), placed := p.placed + 1 }

/-- Gives a value to the pending option, or to the next place. -/
def takeValue (g : Grammar) (p : Progress) (s : String) : Except UsageError Progress :=
  match p.awaiting, p.pending with
  | true, some (a, _) => .ok { p with pending := some (a, some s), awaiting := false }
  | _, _ => p.takePlace g s

def take (g : Grammar) (p : Progress) (s : String) : Except UsageError Progress :=
  if p.trailing then p.takePlace g s
  else
    match s.toList with
    | ['-', '-'] => .ok { p with trailing := true }
    | '-' :: '-' :: rest => p.takeLong g rest
    | '-' :: c :: rest => p.takeShort g c rest
    | _ => p.takeValue g s

end Progress

def isMissing (found : Found) (a : Argument) : Bool := a.required && !found.has a.name

/-- Reads the arguments of a command. -/
def read (g : Grammar) (args : List String) : Except UsageError Found := do
  let p ← args.foldlM (Progress.take g) .initial
  let p ← p.settle
  if g.excluding.any fun (a, b) => p.found.has a && p.found.has b then .error .conflict
  else if (g.places ++ g.options).any (isMissing p.found) then .error .missingRequired
  else .ok p.found

namespace Found

def text? (found : Found) (name : String) : Option String :=
  found.findSome? fun (n, v) =>
    match v with
    | .text s => if n = name then some s else none
    | _ => none

def text (found : Found) (name : String) : String := (found.text? name).getD ""

def texts (found : Found) (name : String) : List String :=
  found.filterMap fun (n, v) =>
    match v with
    | .text s => if n = name then some s else none
    | _ => none

def position (found : Found) (name : String) : Position :=
  (found.findSome? fun (n, v) =>
    match v with
    | .position p => if n = name then some p else none
    | _ => none).getD .origin

def ports (found : Found) (name : String) : List PortSpec :=
  found.filterMap fun (n, v) =>
    match v with
    | .port p => if n = name then some p else none
    | _ => none

def number (found : Found) (name : String) (standard : Float) : Float :=
  (found.findSome? fun (n, v) =>
    match v with
    | .number x => if n = name then some x else none
    | _ => none).getD standard

end Found

end Arguments

end BlockSchematic
