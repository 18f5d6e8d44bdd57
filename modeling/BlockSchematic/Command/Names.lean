import BlockSchematic.Decimal.Layout
import BlockSchematic.Decimal.Reading
import BlockSchematic.Schematic.Basic
import BlockSchematic.Symbol.Label

/-!
# Names on the command line

A port is written as its instance and an index or a name; an instance goes by its name or its id.
A position is two numbers with a comma between them.
-/

namespace BlockSchematic

inductive NameError where
  | noColon (endpoint : String)
  | unknownInstance (name : String)
  | indexTooLarge (inst : String) (count index : Nat)
  | unknownPort (inst port : String)
  deriving DecidableEq, Repr

def NameError.message : NameError → String
  | .noColon endpoint => s!"Expected <instance>:<port>, got '{endpoint}'"
  | .unknownInstance name => s!"No instance named '{name}'"
  | .indexTooLarge inst count index => s!"{inst} has {count} ports, no port {index}"
  | .unknownPort inst port => s!"{inst} has no port '{port}'"

namespace Schematic

def find? (s : Schematic) (name : String) : Option Instance :=
  (s.instanceNamed? name).or (s.instance? name)

def instanceIdOf (s : Schematic) (name : String) : Except NameError String :=
  match s.find? name with
  | some i => .ok i.id
  | none => .error (.unknownInstance name)

/-- The first port of a name, or else the first with its base name. -/
def portIndexOf? (ports : List Port) (name : String) : Option Nat :=
  (ports.findIdx? (·.name = name)).or (ports.findIdx? fun p => baseName p.name = baseName name)

/-- The port that an endpoint names. What can be read as an index is one. -/
def resolvePort (s : Schematic) (endpoint : String) : Except NameError PortRef :=
  match Text.splitLast? ':' endpoint.toList with
  | none => .error (.noColon endpoint)
  | some (name, port) =>
    let name := String.ofList name
    match s.find? name with
    | none => .error (.unknownInstance name)
    | some i =>
      let ports := i.symbol.ports
      match Text.readNatBelow? WordBound.unsigned64 port with
      | some index =>
        if index < ports.length then .ok ⟨i.id, index⟩
        else .error (.indexTooLarge i.name ports.length index)
      | none =>
        match portIndexOf? ports (String.ofList port) with
        | some index => .ok ⟨i.id, index⟩
        | none => .error (.unknownPort i.name (String.ofList port))

/-- What a port is called to people. -/
def portLabel (s : Schematic) (p : PortRef) : String :=
  match s.port? p with
  | some (i, port) => s!"{i.name}:{port.name}"
  | none => p.text

end Schematic

inductive PositionError where
  | noComma (text : String)
  | badX (text : String)
  | badY (text : String)
  deriving DecidableEq, Repr

def PositionError.message : PositionError → String
  | .noComma text => s!"expected X,Y, got '{text}'"
  | .badX text => s!"bad x coordinate '{text}'"
  | .badY text => s!"bad y coordinate '{text}'"

namespace Position

def parse (text : String) : Except PositionError Position :=
  match Text.splitFirst? ',' text.toList with
  | none => .error (.noComma text)
  | some (x, y) =>
    match Decimal.readFloat? (Text.trimChars x), Decimal.readFloat? (Text.trimChars y) with
    | none, _ => .error (.badX (String.ofList x))
    | some _, none => .error (.badY (String.ofList y))
    | some x, some y => .ok ⟨x, y⟩

def text (p : Position) : String :=
  s!"{Decimal.plainLayout.render p.x},{Decimal.plainLayout.render p.y}"

end Position

end BlockSchematic
