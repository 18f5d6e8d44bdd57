import BlockSchematic.Schematic.Edit

/-!
# Wiring by name

Ports of different instances are wired when their base names and widths agree and the rules allow
it. Each pair is wired once; a pair that has a wire in either direction is passed over.
-/

namespace BlockSchematic.Schematic

/-- A port with the name it is matched by. -/
structure NamedPort where
  port : PortRef
  base : String
  width : UInt32

def namedPorts (s : Schematic) : List NamedPort :=
  s.ports.map fun (port, _, p) => ⟨port, baseName p.name, p.width⟩

def matches? (a b : NamedPort) : Bool :=
  a.port.instanceId != b.port.instanceId && a.width == b.width && a.base == b.base

/-- The ordered pairs of ports that agree and may be wired, by first port, then by second. -/
def matchingPairs (s : Schematic) : List (PortRef × PortRef) :=
  let ports := s.namedPorts
  ports.flatMap fun a =>
    (ports.filter fun b => matches? a b && s.isLegal a.port b.port).map fun b => (a.port, b.port)

/-- A sweep on its way: the schematic so far, the number of wires added and the id source. -/
structure Sweep (src : IdSource) where
  schematic : Schematic
  added : Nat
  state : src.State

def Sweep.step {src : IdSource} (sweep : Sweep src) (pair : PortRef × PortRef) : Sweep src :=
  if (sweep.schematic.wireBetween? pair.1 pair.2).isSome then sweep
  else
    match sweep.schematic.pushWire src pair.1 pair.2 sweep.state with
    | (.ok (next, _), st) => ⟨next, sweep.added + 1, st⟩
    | (.error _, st) => { sweep with state := st }

def autoConnect (src : IdSource) (s : Schematic) (st : src.State) :
    (Schematic × Nat) × src.State :=
  let sweep := s.matchingPairs.foldl Sweep.step ⟨s, 0, st⟩
  ((sweep.schematic, sweep.added), sweep.state)

end BlockSchematic.Schematic
