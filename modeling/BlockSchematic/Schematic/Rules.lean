import BlockSchematic.Schematic.Basic

/-!
# Which ports may be wired together

One set of rules decides for every edit. The rules are asked in a fixed order, and the first that
fails gives the reason.
-/

namespace BlockSchematic

inductive Rejection where
  | selfConnection
  | unknownInstance (id : String)
  | pinToPin
  | unknownPort (port : PortRef)
  | widthMismatch (source target : UInt32)
  | inputPinToOutput
  | outputPinToInput
  | directions (source target : Direction)
  deriving DecidableEq, Repr

def Rejection.message : Rejection → String
  | .selfConnection => "a port cannot be wired to its own instance"
  | .unknownInstance id => s!"no instance with id '{id}'"
  | .pinToPin => "two external pins cannot be wired together"
  | .unknownPort port => s!"no port {port.text}"
  | .widthMismatch source target =>
    s!"width mismatch ({source.toNat} bits vs {target.toNat} bits)"
  | .inputPinToOutput => "an input pin cannot connect to an output port"
  | .outputPinToInput => "an output pin cannot connect to an input port"
  | .directions source target =>
    s!"{source.keyword} port cannot connect to {target.keyword} port"

/-- A pin refuses a port that signals run through in its own direction. -/
def pinConflict? (pin : Role) (other : Direction) : Option Rejection :=
  match pin, other with
  | .inputPin, .output => some .inputPinToOutput
  | .outputPin, .input => some .outputPinToInput
  | _, _ => none

/-- One of the two can drive the other. -/
def Direction.connects : Direction → Direction → Bool
  | .bidirectional, _ => true
  | _, .bidirectional => true
  | .input, .output => true
  | .output, .input => true
  | .input, .input => false
  | .output, .output => false

def orReject {α : Type} (x : Option α) (r : Rejection) : Except Rejection α :=
  match x with
  | some a => .ok a
  | none => .error r

namespace Schematic

def check (s : Schematic) (p q : PortRef) : Except Rejection Unit := do
  if p.instanceId = q.instanceId then throw .selfConnection
  let i ← orReject (s.instance? p.instanceId) (.unknownInstance p.instanceId)
  let j ← orReject (s.instance? q.instanceId) (.unknownInstance q.instanceId)
  if i.isPin && j.isPin then throw .pinToPin
  let source ← orReject (i.port? p.index) (.unknownPort p)
  let target ← orReject (j.port? q.index) (.unknownPort q)
  if source.width ≠ target.width then throw (.widthMismatch source.width target.width)
  match (pinConflict? i.role target.direction).or (pinConflict? j.role source.direction) with
  | some r => throw r
  | none =>
    if source.direction.connects target.direction then pure ()
    else throw (.directions source.direction target.direction)

def isLegal (s : Schematic) (p q : PortRef) : Bool := (s.check p q).isOk

end Schematic

/-- A port that may be chosen as the other end of a wire. -/
structure Candidate where
  port : PortRef
  label : String
  position : Position
  deriving Repr

/-- Every port to which `p` may be wired, in instance and port order. -/
def Schematic.candidates (s : Schematic) (p : PortRef) : List Candidate :=
  (s.ports.filter fun (q, _, _) => s.isLegal p q).map fun (q, i, port) =>
    ⟨q, s!"{i.name}: {port.name}", i.position.offset port.location⟩

end BlockSchematic
