import BlockSchematic.Entity.Basic
import BlockSchematic.KeyMap
import BlockSchematic.Symbol.Builtin

/-!
# Schematics

A schematic holds instances of symbols and wires between their ports. A port is addressed by the
id of its instance and its index there. The place of a wire's end follows from the place of its
instance and is kept with the wire only for drawing.
-/

namespace BlockSchematic

structure Position where
  x : Float
  y : Float
  deriving Repr, BEq, Inhabited

/-- The double equal to a word. -/
def wordValue (n : Int32) : Float :=
  let size := (UInt64.ofNat n.toInt.natAbs).toFloat
  if n < 0 then -size else size

def Position.origin : Position := ⟨0.0, 0.0⟩

def Position.offset (p : Position) (q : Point) : Position :=
  ⟨p.x + wordValue q.x, p.y + wordValue q.y⟩

/-- What an instance means: a block, a top-level port or a fragment of code. -/
inductive Role where
  | component
  | inputPin
  | outputPin
  | glue
  deriving DecidableEq, Repr, Inhabited

/-- The role implied by a template. Glue is never implied. -/
def Role.ofTemplate (name : String) : Role :=
  if name = Symbol.pinInputName then .inputPin
  else if name = Symbol.pinOutputName then .outputPin
  else .component

def Role.isPin : Role → Bool
  | .inputPin => true
  | .outputPin => true
  | .component => false
  | .glue => false

/-- A code fragment; its ports stand in the order of the instance's symbol ports. -/
structure Glue where
  code : String
  ports : List PortSpec
  deriving DecidableEq, Repr, Inhabited

structure Instance where
  id : String
  template : String
  name : String
  position : Position
  role : Role
  symbol : Symbol
  glue : Option Glue
  deriving Repr, BEq, Inhabited

def Instance.port? (i : Instance) (index : Nat) : Option Port := i.symbol.port? index

def Instance.portPosition? (i : Instance) (index : Nat) : Option Position :=
  (i.port? index).map fun p => i.position.offset p.location

def Instance.isPin (i : Instance) : Bool := i.role.isPin

structure PortRef where
  instanceId : String
  index : Nat
  deriving DecidableEq, Repr, Inhabited

def PortRef.text (p : PortRef) : String := s!"{p.instanceId}:{p.index}"

structure WireEnd where
  port : PortRef
  position : Position
  deriving Repr, BEq, Inhabited

structure Wire where
  id : String
  start : WireEnd
  finish : WireEnd
  /-- A drawn polyline. -/
  route : Option (List Position)
  width : UInt32
  deriving Repr, BEq, Inhabited

namespace Wire

def touchesInstance (w : Wire) (id : String) : Bool :=
  w.start.port.instanceId == id || w.finish.port.instanceId == id

def touches (w : Wire) (p : PortRef) : Bool := w.start.port == p || w.finish.port == p

/-- The wire runs between the two ports, in either direction. -/
def joins (w : Wire) (p q : PortRef) : Bool :=
  (w.start.port == p && w.finish.port == q) || (w.start.port == q && w.finish.port == p)

end Wire

structure Schematic where
  instances : List Instance
  wires : List Wire
  /-- How many instances of each template were ever placed. -/
  counters : KeyMap UInt32
  deriving BEq, Inhabited

namespace Schematic

def empty : Schematic := ⟨[], [], .empty⟩

def instance? (s : Schematic) (id : String) : Option Instance :=
  s.instances.find? (·.id = id)

def instanceNamed? (s : Schematic) (name : String) : Option Instance :=
  s.instances.find? (·.name = name)

def wire? (s : Schematic) (id : String) : Option Wire := s.wires.find? (·.id = id)

def port? (s : Schematic) (p : PortRef) : Option (Instance × Port) := do
  let i ← s.instance? p.instanceId
  let port ← i.port? p.index
  return (i, port)

def wiresAt (s : Schematic) (p : PortRef) : List Wire := s.wires.filter (·.touches p)

def wireBetween? (s : Schematic) (p q : PortRef) : Option Wire := s.wires.find? (·.joins p q)

def portPosition? (s : Schematic) (p : PortRef) : Option Position :=
  (s.instance? p.instanceId).bind (·.portPosition? p.index)

/-- The end of a wire at a port that exists. -/
def wireEnd? (s : Schematic) (p : PortRef) : Option WireEnd :=
  (s.portPosition? p).map fun position => ⟨p, position⟩

/-- All ids in use. -/
def ids (s : Schematic) : List String := s.instances.map (·.id) ++ s.wires.map (·.id)

/-- All ports, in instance and port order. -/
def ports (s : Schematic) : List (PortRef × Instance × Port) :=
  s.instances.flatMap fun i => i.symbol.ports.mapIdx fun index port => (⟨i.id, index⟩, i, port)

/-- An end whose port exists is moved to where the port is. -/
def refreshEnd (s : Schematic) (e : WireEnd) : WireEnd :=
  { e with position := (s.portPosition? e.port).getD e.position }

def refreshWires (s : Schematic) : Schematic :=
  { s with wires := s.wires.map fun w =>
      { w with start := s.refreshEnd w.start, finish := s.refreshEnd w.finish } }

end Schematic

end BlockSchematic
